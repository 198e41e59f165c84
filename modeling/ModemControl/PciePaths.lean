import ModemControl.Foundation.CString
import ModemControl.PcieRescan
import ModemControl.Uevent

/-! # Finding the ep device: modem_pcie_control.c

`modem_init_ep_device_path` looks through the links of the pci device directory for the one
whose vendor, device and class are the configured ones, and for the bridge that has it as a
child. The three paths it leaves are all that a rescan and a uevent know of the ep device.
The buffers in which it puts its paths together have no bound here: `Room` says when they
have room.
-/

namespace ModemControl.PciePaths

open Foundation PcieRescan

def MAX_EP_PATH_LEN : Nat := 128

def PROPERTY_VALUE_MAX : Nat := 92

def EP_DEVICE_DIR : Bytes := bytes "devices/"

def PCIE_EP_REMOVE_DEV : Bytes := bytes "remove"

def PCIE_EP_RESCAN_DEV : Bytes := bytes "rescan"

/-- `PCIE_DEVICE_PATH`, and the ids that the ep device has in its files. -/
inductive Property where
  | devicePath
  | vendorId
  | deviceId
  | classId
  deriving Repr, DecidableEq

structure Dirent where
  name : Bytes
  /-- `d_type == DT_LNK` -/
  isLink : Bool
  deriving Repr, DecidableEq

structure Sysfs where
  /-- Nothing when `property_get` does not return a positive length. -/
  property : Property → Option Bytes
  opendir : Bytes → Option (List Dirent)
  /-- What a file of a directory has to be read; nothing when it cannot be opened or read. -/
  read : Bytes → Bytes → Option Bytes
  access : Bytes → Bool

structure Paths where
  deviceRemove : Bytes := []
  bridgeRemove : Bytes := []
  rescan : Bytes := []
  deriving Repr, DecidableEq

/-- What fits into a buffer of this size. -/
def snprintf (size : Nat) (text : Bytes) : Bytes := text.take (size - 1)

/-- Up to a '\n' or '\r'. -/
def line (buf : Bytes) : Bytes := buf.takeWhile fun c => c != 10 && c != 13

def modemMatchSomething (s : Sysfs) (dir name : Bytes) (prop : Property) : Bool :=
  match s.property prop, s.read dir name with
  | some value, some content =>
      let buf := content.take 19
      buf != [] && value == line (cstr buf)
  | _, _ => false

def modemFindEpDevice (s : Sysfs) (path : Bytes) : Bool :=
  (s.opendir path).isSome &&
    modemMatchSomething s path (bytes "vendor") .vendorId &&
    modemMatchSomething s path (bytes "device") .deviceId &&
    modemMatchSomething s path (bytes "class") .classId

def isEp (s : Sysfs) (dir : Bytes) (de : Dirent) : Bool :=
  de.isLink && modemFindEpDevice s (dir ++ de.name)

/-- The ep name is in the directory of its bridge. -/
def isBridge (s : Sysfs) (dir : Bytes) (ep de : Dirent) : Bool :=
  de.isLink && s.access (snprintf PROPERTY_VALUE_MAX (dir ++ de.name ++ bytes "/" ++ ep.name))

def removePath (dir : Bytes) (de : Dirent) : Bytes :=
  snprintf MAX_EP_PATH_LEN (dir ++ de.name ++ bytes "/" ++ PCIE_EP_REMOVE_DEV)

def modemInitEpDevicePath (s : Sysfs) : Int × Paths :=
  match s.property .devicePath with
  | none => (-1, {})
  | some dirPath =>
      let paths : Paths := { rescan := snprintf MAX_EP_PATH_LEN (dirPath ++ PCIE_EP_RESCAN_DEV) }
      let dir := dirPath ++ EP_DEVICE_DIR
      match s.opendir dir with
      | none => (-2, paths)
      | some entries =>
          -- 1th, find ep device path
          match entries.find? (isEp s dir) with
          | none => (1, paths)
          | some ep =>
              let paths := { paths with deviceRemove := removePath dir ep }
              -- 2th, find ep bridge path
              match entries.find? (isBridge s dir ep) with
              | none => (1, paths)
              | some bridge => (0, { paths with bridgeRemove := removePath dir bridge })

def Paths.of (p : Paths) : File → Bytes
  | .deviceRemove => p.deviceRemove
  | .bridgeRemove => p.bridgeRemove
  | .rescan => p.rescan

/-- No file has an empty path. -/
def writePath (p : Paths) (n : Nodes) (file : File) (a : Answer) : Int × Nodes :=
  if p.of file = [] then (-1, n) else modemWriteFile n file a

/-- `modem_rescan_ep_device`, with the paths as they were left. -/
def rescanPaths (p : Paths) (n : Nodes) (a : Answers) : Int × Nodes :=
  let (ret, n) := writePath p n .deviceRemove a.device
  if ret ≠ 0 then (ret, n)
  else
    let (ret, n) := writePath p n .bridgeRemove a.bridge
    if ret ≠ 0 then (ret, n)
    else writePath p n .rescan a.rescan

/-- The loop of `modem_reboot_all_modem`. Nothing as long as it goes on. -/
def rebootLoop (p : Paths) : Nodes → List Answers → Option Nodes
  | _, [] => none
  | n, a :: rest =>
      let (bContinue, n) := rescanPaths p n a
      if bContinue ≠ 0 then rebootLoop p n rest else some n

/-- The loop of `modem_pcie_event` over the path from its end: what is left of `dev`, the
    text at `dev`, and whether a '/' was found. -/
def findDev : Bytes → Bytes → Bool → Bytes
  | [], dev, _ => dev
  | c :: before, dev, found =>
      if c = 47 then if found then dev else findDev before [] true
      else findDev before (c :: dev) found

/-- The files whose owner `modem_chane_ep_device_owner` changes. -/
def modemChaneEpDeviceOwner (p : Paths) (normal : Bool) : List Bytes :=
  if normal then [p.rescan, p.deviceRemove, p.bridgeRemove] else []

def modemPcieEvent (p : Paths) (normal : Bool) (action path : Bytes) : List Bytes :=
  if cstr action ≠ bytes "add" then []
  else
    let dev := findDev (p.deviceRemove.take (MAX_EP_PATH_LEN - 1)).reverse [] false
    if strstr (cstr path) dev then modemChaneEpDeviceOwner p normal else []

theorem snprintf_ne_nil {size : Nat} (room : 1 < size) {text : Bytes} (some : text ≠ []) :
    snprintf size text ≠ [] := by
  unfold snprintf
  rw [ne_eq, List.take_eq_nil_iff]
  have : size - 1 ≠ 0 := by omega
  tauto

theorem removePath_ne_nil (dir : Bytes) (de : Dirent) : removePath dir de ≠ [] :=
  snprintf_ne_nil (by decide) (by simp [PCIE_EP_REMOVE_DEV, bytes])

/-- How the search ends: all three paths are there, or the bridge's is missing. -/
theorem init_cases (s : Sysfs) :
    ((modemInitEpDevicePath s).1 = 0 ∧ ∀ file, (modemInitEpDevicePath s).2.of file ≠ []) ∨
      (modemInitEpDevicePath s).1 ≠ 0 ∧ (modemInitEpDevicePath s).2.bridgeRemove = [] := by
  unfold modemInitEpDevicePath
  cases s.property .devicePath with
  | none => exact Or.inr ⟨by simp, rfl⟩
  | some dirPath =>
      dsimp only
      cases s.opendir (dirPath ++ EP_DEVICE_DIR) with
      | none => exact Or.inr ⟨by simp, rfl⟩
      | some entries =>
          dsimp only
          cases entries.find? (isEp s (dirPath ++ EP_DEVICE_DIR)) with
          | none => exact Or.inr ⟨by simp, rfl⟩
          | some ep =>
              dsimp only
              cases entries.find? (isBridge s (dirPath ++ EP_DEVICE_DIR) ep) with
              | none => exact Or.inr ⟨by simp, rfl⟩
              | some bridge =>
                  refine Or.inl ⟨rfl, ?_⟩
                  intro file
                  cases file with
                  | deviceRemove | bridgeRemove => exact removePath_ne_nil _ _
                  | rescan => exact snprintf_ne_nil (by decide) (by simp [PCIE_EP_RESCAN_DEV, bytes])

theorem rescan_whole_paths {p : Paths} (whole : ∀ file, p.of file ≠ []) (n : Nodes) (a : Answers) :
    rescanPaths p n a = modemRescanEpDevice n a := by
  simp only [rescanPaths, writePath, whole, if_false, modemRescanEpDevice]

/-- Without the bridge's path no rescan succeeds, however the nodes answer. -/
theorem rescan_no_bridge {p : Paths} (missing : p.bridgeRemove = []) (n : Nodes) (a : Answers) :
    (rescanPaths p n a).1 ≠ 0 := by
  have bridge (n : Nodes) : writePath p n .bridgeRemove a.bridge = (-1, n) := if_pos missing
  simp only [rescanPaths, bridge]
  split <;> simp_all

theorem loop_no_bridge {p : Paths} (missing : p.bridgeRemove = []) (n : Nodes)
    (attempts : List Answers) : rebootLoop p n attempts = none := by
  induction attempts generalizing n with
  | nil => rfl
  | cons a rest ih => simp only [rebootLoop, if_pos (rescan_no_bridge missing n a), ih]

/-- A reset of the external modem gets beyond its rescans only where the ep device and its
    bridge were found at the start; elsewhere it repeats them for ever, and loads nothing. -/
theorem reboot_goes_on_iff (s : Sysfs) :
    (∃ attempts n, rebootLoop (modemInitEpDevicePath s).2 PcieRescan.start attempts = some n) ↔
      (modemInitEpDevicePath s).1 = 0 := by
  rcases init_cases s with ⟨found, whole⟩ | ⟨lost, missing⟩
  · refine iff_of_true ⟨[{}], PcieRescan.start, ?_⟩ found
    have accepted : modemRescanEpDevice PcieRescan.start {} = (0, PcieRescan.start) :=
      rescan_accept rfl
    simp [rebootLoop, rescan_whole_paths whole, accepted]
  · refine iff_of_false ?_ lost
    rintro ⟨attempts, n, ended⟩
    rw [loop_no_bridge missing] at ended
    cases ended

/-- The ep device: the first link of the directory with the configured ids. -/
def epDevice (s : Sysfs) : Option Dirent := do
  let dirPath ← s.property .devicePath
  let entries ← s.opendir (dirPath ++ EP_DEVICE_DIR)
  entries.find? (isEp s (dirPath ++ EP_DEVICE_DIR))

/-- The two buffers of PROPERTY_VALUE_MAX bytes have room for what `strncat` puts there: the
    directory, and the path of each of its entries. -/
def Room (s : Sysfs) : Prop :=
  ∀ dirPath entries, s.property .devicePath = some dirPath →
    s.opendir (dirPath ++ EP_DEVICE_DIR) = some entries →
      ∀ de ∈ entries, (dirPath ++ EP_DEVICE_DIR ++ de.name).length < PROPERTY_VALUE_MAX

/-- File names have no '/', and the paths are short enough for their buffers. -/
def Fits (s : Sysfs) : Prop :=
  ∀ dirPath entries, s.property .devicePath = some dirPath →
    s.opendir (dirPath ++ EP_DEVICE_DIR) = some entries →
      ∀ de ∈ entries, 47 ∉ de.name ∧ dirPath.length + de.name.length + 15 < MAX_EP_PATH_LEN

/-- What the search has room for, the paths that it leaves have room for. -/
theorem Room.fits {s : Sysfs} (room : Room s)
    (plain : ∀ dir entries, s.opendir dir = some entries → ∀ de ∈ entries, 47 ∉ de.name) : Fits s := by
  intro dirPath entries path opened de member
  refine ⟨plain _ _ opened de member, ?_⟩
  have short := room dirPath entries path opened de member
  have devices : EP_DEVICE_DIR.length = 8 := by decide
  simp only [List.length_append, devices, PROPERTY_VALUE_MAX] at short
  unfold MAX_EP_PATH_LEN
  omega

/-- The loop takes a name without '/' that is between two of them. -/
theorem findDev_name {name : Bytes} (plain : 47 ∉ name) (before dev : Bytes) :
    findDev (name ++ 47 :: before) dev true = name.reverse ++ dev := by
  induction name generalizing dev with
  | nil => simp [findDev]
  | cons c name ih =>
      rw [List.mem_cons, not_or] at plain
      have other : c ≠ 47 := Ne.symm plain.1
      rw [List.cons_append, findDev, if_neg other, ih plain.2, List.reverse_cons, List.append_assoc]
      rfl

theorem findDev_tail {tail : Bytes} (plain : 47 ∉ tail) (before dev : Bytes) :
    findDev (tail ++ 47 :: before) dev false = findDev before [] true := by
  induction tail generalizing dev with
  | nil => simp [findDev]
  | cons c tail ih =>
      rw [List.mem_cons, not_or] at plain
      have other : c ≠ 47 := Ne.symm plain.1
      rw [List.cons_append, findDev, if_neg other, ih plain.2]

/-- From the remove path of a device the loop gets the name of the device. -/
theorem findDev_removePath {dir name : Bytes} (plain : 47 ∉ name) :
    findDev (dir ++ 47 :: (name ++ 47 :: PCIE_EP_REMOVE_DEV)).reverse [] false = name := by
  have tail : (47 : UInt8) ∉ PCIE_EP_REMOVE_DEV.reverse := by decide
  have rev : (dir ++ 47 :: (name ++ 47 :: PCIE_EP_REMOVE_DEV)).reverse =
      PCIE_EP_REMOVE_DEV.reverse ++ 47 :: (name.reverse ++ 47 :: dir.reverse) := by simp
  rw [rev, findDev_tail tail, findDev_name (by simpa using plain)]
  simp

/-- After a search that succeeds, the device's remove path is that of the ep device. -/
theorem init_found {s : Sysfs} {p : Paths} (found : modemInitEpDevicePath s = (0, p)) :
    ∃ dirPath entries ep, s.property .devicePath = some dirPath ∧
      s.opendir (dirPath ++ EP_DEVICE_DIR) = some entries ∧ epDevice s = some ep ∧
        ep ∈ entries ∧ p.deviceRemove = removePath (dirPath ++ EP_DEVICE_DIR) ep := by
  unfold modemInitEpDevicePath at found
  cases path : s.property .devicePath with
  | none => simp [path] at found
  | some dirPath =>
      simp only [path] at found
      cases opened : s.opendir (dirPath ++ EP_DEVICE_DIR) with
      | none => simp [opened] at found
      | some entries =>
          simp only [opened] at found
          cases first : entries.find? (isEp s (dirPath ++ EP_DEVICE_DIR)) with
          | none => simp [first] at found
          | some ep =>
              simp only [first] at found
              refine ⟨dirPath, entries, ep, rfl, opened, ?_, List.mem_of_find?_eq_some first, ?_⟩
              · simp [epDevice, path, opened, first]
              · cases second : entries.find? (isBridge s (dirPath ++ EP_DEVICE_DIR) ep) with
                | none => simp [second] at found
                | some bridge =>
                    simp only [second, Prod.mk.injEq, true_and] at found
                    rw [← found]

theorem findDev_found {s : Sysfs} (fits : Fits s) {p : Paths}
    (found : modemInitEpDevicePath s = (0, p)) :
    ∃ ep, epDevice s = some ep ∧
      findDev (p.deviceRemove.take (MAX_EP_PATH_LEN - 1)).reverse [] false = ep.name := by
  obtain ⟨dirPath, entries, ep, path, opened, device, member, remove⟩ := init_found found
  obtain ⟨plain, short⟩ := fits dirPath entries path opened ep member
  refine ⟨ep, device, ?_⟩
  have text : dirPath ++ EP_DEVICE_DIR ++ ep.name ++ bytes "/" ++ PCIE_EP_REMOVE_DEV =
      dirPath ++ bytes "devices" ++ 47 :: (ep.name ++ 47 :: PCIE_EP_REMOVE_DEV) := by
    have dir : EP_DEVICE_DIR = bytes "devices" ++ [47] := by decide
    have slash : bytes "/" = [47] := by decide
    simp [dir, slash]
  have whole : (dirPath ++ bytes "devices" ++
      47 :: (ep.name ++ 47 :: PCIE_EP_REMOVE_DEV)).length ≤ MAX_EP_PATH_LEN - 1 := by
    have devices : (bytes "devices").length = 7 := by decide
    have last : PCIE_EP_REMOVE_DEV.length = 6 := by decide
    simp only [List.length_append, List.length_cons, devices, last]
    omega
  rw [remove, removePath, snprintf, text, List.take_of_length_le whole,
    List.take_of_length_le whole, findDev_removePath plain]

/-- Once the ep device is found, a uevent of the pci bus has the owner of its files changed
    exactly when it adds a device whose path names the ep device, and in the normal mode. -/
theorem pcie_event_owner {s : Sysfs} (fits : Fits s) {p : Paths}
    (found : modemInitEpDevicePath s = (0, p)) :
    ∃ ep, epDevice s = some ep ∧ ∀ normal action path,
      modemPcieEvent p normal action path =
        if cstr action = bytes "add" ∧ strstr (cstr path) ep.name ∧ normal then
          [p.rescan, p.deviceRemove, p.bridgeRemove]
        else [] := by
  obtain ⟨ep, device, dev⟩ := findDev_found fits found
  refine ⟨ep, device, ?_⟩
  intro normal action path
  simp only [modemPcieEvent, dev, modemChaneEpDeviceOwner]
  split_ifs <;> simp_all

/-- The name that a handler of the monitor is to look for. -/
def epName (p : Paths) : Bytes :=
  findDev (p.deviceRemove.take (MAX_EP_PATH_LEN - 1)).reverse [] false

/-- What the handler makes of its event in the monitor, where it may be of any kind. -/
theorem modemPcieEvent_eq (p : Paths) (normal : Bool) (action path : Bytes) (stat : Int) :
    modemPcieEvent p normal action path =
      if Uevent.modemPcieEvent (epName p) ⟨some (cstr action), some (cstr path), stat⟩ =
          .changeEpDeviceOwner then
        modemChaneEpDeviceOwner p normal
      else [] := by
  unfold modemPcieEvent Uevent.modemPcieEvent epName
  split_ifs <;> simp_all

/-- A handler thread of the pci bus that sees its own event goes on to change the owner exactly
    when this event adds a device whose path names the ep device. -/
theorem pcie_handler_owner {s : Sysfs} (fits : Fits s) {p : Paths}
    (found : modemInitEpDevicePath s = (0, p)) {clients : List (Option Uevent.EventClient)}
    {m : Uevent.Monitor} {k : Nat} {t : Uevent.HandleThread} {subsystem action path : Bytes}
    (sees : Uevent.SeesOwn m (.runHandler k)) (here : m.started[k]? = some t)
    (named : (clients[t.info.handleIndex]?).join = some ⟨subsystem, .modemPcieEvent (epName p)⟩)
    (added : t.own.action = some action) (at_ : t.own.devpath = some path) :
    ∃ ep, epDevice s = some ep ∧
      (Uevent.reaction clients m k = some .changeEpDeviceOwner ↔
        action = bytes "add" ∧ strstr path ep.name) := by
  obtain ⟨ep, device, name⟩ := findDev_found fits found
  have dev : epName p = ep.name := name
  refine ⟨ep, device, ?_⟩
  rw [Uevent.reaction_own sees here named]
  simp only [Uevent.Handler.react, Uevent.modemPcieEvent, added, at_, dev, Option.some.injEq]
  split_ifs <;> simp_all

/-- A bridge with one device behind it, which is the ep device. -/
def board : Sysfs where
  property
    | .devicePath => some (bytes "/sys/bus/pci/")
    | .vendorId => some (bytes "0x16c3")
    | .deviceId => some (bytes "0xabcd")
    | .classId => some (bytes "0x0d8000")
  opendir dir :=
    if dir = bytes "/sys/bus/pci/devices/" then
      some [⟨bytes ".", false⟩, ⟨bytes "0000:10:00.0", true⟩, ⟨bytes "0000:11:00.0", true⟩]
    else some []
  read dir name :=
    if dir = bytes "/sys/bus/pci/devices/0000:11:00.0" then
      if name = bytes "vendor" then some (bytes "0x16c3\n")
      else if name = bytes "device" then some (bytes "0xabcd\n")
      else some (bytes "0x0d8000\n")
    else some (bytes "0x060400\n")
  access path := path = bytes "/sys/bus/pci/devices/0000:10:00.0/0000:11:00.0"

theorem pcie_event_owner_board :
    ∃ ep, epDevice board = some ep ∧ ∀ normal action path,
      modemPcieEvent (modemInitEpDevicePath board).2 normal action path =
        if cstr action = bytes "add" ∧ strstr (cstr path) ep.name ∧ normal then
          [(modemInitEpDevicePath board).2.rescan, (modemInitEpDevicePath board).2.deviceRemove,
            (modemInitEpDevicePath board).2.bridgeRemove]
        else [] := by
  have fits : Fits board := by
    intro dirPath entries path opened
    obtain rfl := Option.some.inj path
    obtain rfl := Option.some.inj opened
    decide
  have found : (modemInitEpDevicePath board).1 = 0 := by decide
  exact pcie_event_owner fits (Prod.ext found rfl)

end ModemControl.PciePaths
