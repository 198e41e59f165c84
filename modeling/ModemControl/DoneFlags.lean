import ModemControl.AnnouncedRegions
import ModemControl.Foundation.Guarded
import ModemControl.Handshake

/-! # What the miniap is told

`load_modem_img` of the external variant sets a done flag for each stage. In the state in which
it does so, the regions of the images of this stage hold these images, whatever has become of
the devices before the pass of the stage: the modem may have run in between.
-/

namespace ModemControl.DeviceMemory

open Foundation Load LoadFiles LoadCalls

/-- From its beginning on the region holds the image that the headers of its file tell of. -/
def Holds (c : Setup) (img : ImageLoad) (content : Option Bytes) (region : Nat → UInt8) : Prop :=
  ∃ offset size, Extent c img content (offset, size) ∧
    (Countable (size.setWidth 32) →
      (part content offset (size.setWidth 32)).length = (size.setWidth 32).toNat ∧
      ∀ a byte, (part content offset (size.setWidth 32))[a]? = some byte → region a = byte)

def StageHolds (c : Setup) (load : LoadValue) (stage : Stage) (s : Devices) : Prop :=
  ∀ i img, load.loadTable[i]? = some img →
    selected stage.loadFlag stage.skipFlag img = true → special img = false →
    Holds c img (s.file img.pathR) (s.memory (target load s i img))

theorem Filled.holds {c : Setup} {img : ImageLoad} {content : Option Bytes}
    {before after : Nat → UInt8} (filled : Filled c img content before after) :
    Holds c img content after := by
  obtain ⟨offset, size, extent, put⟩ := filled
  refine ⟨offset, size, extent, ?_⟩
  intro countable
  obtain ⟨length, rfl⟩ := put countable
  refine ⟨length, ?_⟩
  intro a byte found
  rw [overwrite, if_pos (Nat.zero_le a), Nat.sub_zero, found]
  rfl

/-- A stage is told done only where its images are in their regions. -/
def Told (c : Setup) (m : LoadInfo) (s : Devices) (op : CallOp) : Prop :=
  ∀ stage : Stage, op = stage.done → s.faults = false → StageHolds c m.cp stage s

section

variable {c : Setup} {m : LoadInfo} {s : Devices} {α : Type}

end

end ModemControl.DeviceMemory
