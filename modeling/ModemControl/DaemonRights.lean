import ModemControl.Daemon

/-! # One thread at a time

The threads of modem_control share devices, sockets and the modem itself, with no lock for
them. Each of these uses is made by one thread at a time all the same: the one that makes it
was started, directly or not, by the one that might have made it before. So the boot and the
control messages never load the modem at the same time. The spl that a uevent handler loads,
and the reads of the alive device in `modem_ctrl_try_read_modem_alive`, may come at any time.
-/

namespace ModemControl.Daemon

open Foundation ListenModem
open Foundation.Fleet (Right)
open Load (Build)
open Boot (Started BootProg)

inductive Resource where
  /-- `load_modem_img` and the reboot of the external modem, at the boot and on a control
      message. -/
  | loading
  /-- The read end of the control pipe. -/
  | controlPipe
  /-- What `modem_ctrl_listen_modem` waits for and reads. -/
  | modemDevices
  | pmicMonitor
  | listenSocket
  /-- What the clients write. -/
  | clientMessages
  | ueventSocket
  deriving Repr, DecidableEq

def needed : Resource → (k : Kind) → Op k → Bool
  | .loading, .main, .loadModemImg _ => true
  | .loading, .modemCtrlListenClients, .loadModemImg _ => true
  | .loading, .modemCtrlListenClients, .modemCtrlRebootExternalModem => true
  | .controlPipe, .modemCtrlListenClients, .modemReadDataFromClients => true
  | .modemDevices, .modemCtrlListenModem, .select _ => true
  | .modemDevices, .modemCtrlListenModem, .read _ => true
  | .pmicMonitor, .modemCtrlListenSp, .loop .select => true
  | .pmicMonitor, .modemCtrlListenSp, .loop .read => true
  | .listenSocket, .modemSetupClientsConnect, .accept => true
  | .clientMessages, .modemCtrlReadThread, .select _ => true
  | .clientMessages, .modemCtrlReadThread, .read _ => true
  | .ueventSocket, .ueventMonitorThread, .poll => true
  | .ueventSocket, .ueventMonitorThread, .ueventKernelMulticastRecv => true
  | _, _, _ => false

def has : Resource → Task → Bool
  | _, ⟨.main, _⟩ => true
  | .loading, ⟨.modemCtrlListenModem, .start⟩ => true
  | .controlPipe, ⟨.modemCtrlListenModem, .start⟩ => true
  | .modemDevices, ⟨.modemCtrlListenModem, _⟩ => true
  | .loading, ⟨.modemCtrlListenClients, _⟩ => true
  | .controlPipe, ⟨.modemCtrlListenClients, _⟩ => true
  | .pmicMonitor, ⟨.modemCtrlListenSp, _⟩ => true
  | .listenSocket, ⟨.modemSetupClientsConnect, _⟩ => true
  | .clientMessages, ⟨.modemSetupClientsConnect, .start⟩ => true
  | .clientMessages, ⟨.modemCtrlReadThread, _⟩ => true
  | .ueventSocket, ⟨.ueventMonitorThread, _⟩ => true
  | _, _ => false

def hands : Resource → (k : Kind) → Op k → Bool
  | r, .main, .pthreadCreate thread => has r (started thread)
  | .clientMessages, .modemSetupClientsConnect, .createReadThread => true
  | .loading, .modemCtrlListenModem, .createListenClients => true
  | .controlPipe, .modemCtrlListenModem, .createListenClients => true
  | _, _, _ => false

theorem hands_of_starts (r : Resource) (k : Kind) (op : Op k) (res : Res k op) (task : Task)
    (start : starts k op res = some task) (given : has r task = true) : hands r k op = true := by
  unfold starts at start
  split at start
  · obtain rfl := Option.some.inj start
    exact given
  all_goals cases start
  all_goals cases r <;> first | rfl | cases given

def right (v : Variant) (b : Build) (r : Resource) : (fleet v b).Right where
  needed := needed r
  hands := hands r
  has := has r
  hands_of_starts := hands_of_starts r

section Main

variable {v : Variant} {b : Build} {r : Resource} {α : Type}

/-- The right is there as long as one of these threads is still to be started with it. -/
def Left (r : Resource) (threads : List Started) (held : Bool) : Prop :=
  ∀ thread ∈ threads, has r (started thread) = true → held = true

/-- A call of the main thread that starts no thread and loads nothing. -/
def Quiet (r : Resource) (op : Boot.Op) : Prop := hands r .main op = false ∧ needed r .main op = false

theorem quiet_call {op : Boot.Op} (create : ∀ thread, op ≠ .pthreadCreate thread)
    (load : ∀ loadType, op ≠ .loadModemImg loadType) : Quiet r op := by
  cases op with
  | pthreadCreate thread => exact absurd rfl (create thread)
  | loadModemImg loadType => exact absurd rfl (load loadType)
  | _ => cases r <;> exact ⟨rfl, rfl⟩

theorem quiet_when (c : Bool) {op : Boot.Op} {f : Boot.Op.Res op → BootProg Unit} (quiet : Quiet r op)
    (rest : ∀ res, (f res).Calls (Quiet r)) : (Prog.when c (.call op f)).Calls (Quiet r) :=
  Prog.Calls.when c ⟨quiet, rest⟩

theorem meets_quiet {p : BootProg α} (held : Bool) (calls : p.Calls (Quiet r)) :
    p.Meets ((right v b r).monitor .main) (fun _ held' => held' = held) held := by
  apply Right.meets_keeping
  apply calls.mono
  intro op quiet
  have none : needed r .main op = false := quiet.2
  refine ⟨quiet.1, ?_⟩
  intro some
  have some : needed r .main op = true := some
  rw [none] at some
  cases some

theorem meets_create {thread : Started} {threads : List Started} {held : Bool} {f : Bool → BootProg α}
    {post : α → Bool → Prop} (left : Left r (thread :: threads) held)
    (once : ∀ u ∈ threads, has r (started u) = true → has r (started thread) = false)
    (rest : ∀ created held', Left r threads held' →
      (f created).Meets ((right v b r).monitor .main) post held') :
    (Boot.pthreadCreate thread >>= f).Meets ((right v b r).monitor .main) post held := by
  apply Prog.Meets.call
  · intro wants
    have wants : (needed r .main (.pthreadCreate thread) || has r (started thread)) = true := wants
    have free : needed r .main (.pthreadCreate thread) = false := by cases r <;> rfl
    rw [free, Bool.false_or] at wants
    exact left thread List.mem_cons_self wants
  · intro created
    apply rest
    intro u member given
    have mine := once u member given
    have kept := left u (List.mem_cons_of_mem _ member) given
    simp [Right.monitor, right, hands, mine, kept]

theorem meets_listen {held : Bool} (left : Left r [.modemCtrlListenModem] held) (c d : Bool) :
    (Prog.when c do
      let _ ← Boot.pthreadCreate .modemCtrlListenModem
      Boot.signalAlarm
      Prog.when d Boot.modemCtrlStartWaitAliveTimer).Meets ((right v b r).monitor .main)
        (fun _ _ => True) held := by
  apply Prog.Meets.when
  · intro _
    apply meets_create left nofun
    intro _ held _
    have alarm : (Boot.signalAlarm >>= fun _ =>
        Prog.when d Boot.modemCtrlStartWaitAliveTimer).Calls (Quiet r) :=
      ⟨quiet_call nofun nofun, fun _ => quiet_when d (quiet_call nofun nofun) fun _ => trivial⟩
    exact (meets_quiet held alarm).mono fun _ _ _ => trivial
  · intro _
    trivial

/-- The modem is loaded before the thread is started that may load it later on. -/
theorem meets_load {held : Bool} (left : Left r [.modemCtrlListenModem] held) (c : Bool) :
    (Prog.when c (Boot.loadModemImg Boot.LOAD_ALL_IMG)).Meets ((right v b r).monitor .main)
      (fun _ held' => held' = held) held := by
  have hands_none : hands r .main (.loadModemImg Boot.LOAD_ALL_IMG) = false := by cases r <;> rfl
  apply Right.meets_keeping
  apply Prog.Calls.when
  refine ⟨⟨hands_none, ?_⟩, fun _ => trivial⟩
  intro wanted
  have wanted : needed r .main (.loadModemImg Boot.LOAD_ALL_IMG) = true := wanted
  apply left .modemCtrlListenModem List.mem_cons_self
  cases r <;> first | rfl | cases wanted

theorem meets_bootModem {held : Bool}
    (left : Left r [.modemCtrlListenSp, .modemCtrlListenModem] held) :
    (Boot.modemCtrlBootModem b).Meets ((right v b r).monitor .main) (fun _ _ => True) held := by
  have been : Boot.modemHasBeenBoot.Calls (Quiet r) := by
    refine ⟨quiet_call nofun nofun, fun pm => ?_⟩
    cases pm with
    | true => trivial
    | false => exact ⟨quiet_call nofun nofun, fun _ => ⟨quiet_call nofun nofun, fun _ => trivial⟩⟩
  have init : Boot.initModemImgInfo.Calls (Quiet r) := ⟨quiet_call nofun nofun, fun _ => trivial⟩
  have read : Boot.readCmdline.Calls (Quiet r) := ⟨quiet_call nofun nofun, fun _ => trivial⟩
  apply (meets_quiet held init).bind
  rintro failed _ rfl
  split
  · trivial
  · apply (meets_quiet _ been).bind
    rintro modemIsAlive _ rfl
    apply (meets_quiet _ read).bind
    rintro file held rfl
    have later : Left r [.modemCtrlListenModem] held :=
      fun thread member => left thread (List.mem_cons_of_mem _ member)
    apply (meets_load later _).bind
    rintro _ held rfl
    apply meets_create left
    · cases r <;> decide
    · intro _ held left
      apply (meets_listen left _ _).bind
      intro _ _ _
      trivial

theorem meets_watch {held : Bool} (left : Left r [.ueventMonitorThread, .modemSetupClientsConnect,
      .modemCtrlListenSp, .modemCtrlListenModem] held) :
    (Boot.watchUevents v b).Meets ((right v b r).monitor .main)
      (fun _ => Left r [.modemSetupClientsConnect, .modemCtrlListenSp, .modemCtrlListenModem]) held := by
  cases v with
  | internal => exact fun thread member => left thread (List.mem_cons_of_mem _ member)
  | external =>
      have init : Boot.modemEventInit.Calls (Quiet r) := ⟨quiet_call nofun nofun, fun _ => trivial⟩
      have pcie : (Prog.when b.pcieRescan Boot.modemPcieInit).Calls (Quiet r) :=
        quiet_when _ (quiet_call nofun nofun) fun _ => trivial
      apply (meets_quiet held init).bind
      rintro _ _ rfl
      apply (meets_quiet _ pcie).bind
      rintro _ held rfl
      have create := @meets_create .external b r Bool .ueventMonitorThread
        [.modemSetupClientsConnect, .modemCtrlListenSp, .modemCtrlListenModem] held
        Prog.ret (fun _ => Left r [.modemSetupClientsConnect, .modemCtrlListenSp, .modemCtrlListenModem])
        left (by cases r <;> decide) (fun _ _ left => left)
      exact create

theorem meets_main : (Boot.main v b).Meets ((right v b r).monitor .main) (fun _ _ => True) true := by
  have mode : Boot.modemCtrlInitBootMode.Calls (Quiet r) :=
    ⟨quiet_call nofun nofun, fun _ => ⟨quiet_call nofun nofun, fun _ => trivial⟩⟩
  have switch (c : Bool) : (Prog.when c Boot.switchUserToSystem).Calls (Quiet r) :=
    quiet_when c (quiet_call nofun nofun) fun _ => trivial
  have type : Boot.modemCtrlIntModemType.Calls (Quiet r) := by
    refine Prog.Calls.call (quiet_call nofun nofun) fun modemType => ?_
    split
    · trivial
    · exact ⟨quiet_call nofun nofun, fun _ => trivial⟩
  apply (meets_quiet true mode).bind
  rintro mode _ rfl
  split
  · trivial
  · apply (meets_quiet true (switch _)).bind
    rintro _ _ rfl
    apply (meets_quiet true type).bind
    rintro failed _ rfl
    split
    · trivial
    · apply (meets_watch fun _ _ _ => rfl).bind
      intro watched held left
      split
      · trivial
      · apply meets_create left
        · cases r <;> decide
        · intro _ held left
          apply (meets_bootModem left).bind
          intro _ _ _
          trivial

end Main

section Others

variable {v : Variant} {b : Build} {r : Resource}

/-- A call that hands the right to no other thread. -/
def Handless (r : Resource) (k : Kind) (op : Op k) : Prop := hands r k op = false

/-- Such calls, of a thread that has the right if it ever needs it. -/
theorem meets_own {k : Kind} {held : Bool} {α : Type} {p : Prog (Op k) (Res k) α}
    (calls : p.Calls (Handless r k)) (own : ∀ op, needed r k op = true → held = true) :
    p.Meets ((right v b r).monitor k) (fun _ held' => held' = held) held := by
  apply Right.meets_keeping
  exact calls.mono fun op handless => ⟨handless, own op⟩

/-- What is asked of a round. -/
def Keeps (v : Variant) (b : Build) (r : Resource) (k : Kind) (l : Local k)
    (p : Prog (Op k) (Res k) (Option (Local k))) : Prop :=
  p.Meets ((right v b r).monitor k)
    (fun l' held => ∀ l₁, l' = some l₁ → has r ⟨k, l₁⟩ = true → held = true) (has r ⟨k, l⟩)

/-- A kind of thread that needs the right if it has it, and hands it to no other. -/
theorem keeps_own {k : Kind} {l : Local k} {p : Prog (Op k) (Res k) (Option (Local k))}
    (handless : ∀ op, Handless r k op) (own : ∀ op, needed r k op = true → has r ⟨k, l⟩ = true)
    (same : ∀ l₁, has r ⟨k, l₁⟩ = has r ⟨k, l⟩) : Keeps v b r k l p := by
  have all := @Right.meets_of_all _ _ (right v b r) k _ p (has r ⟨k, l⟩)
    fun op => ⟨handless op, own op⟩
  apply all.mono
  rintro _ _ rfl l₁ _ given
  rwa [← same l₁]

theorem connect_handless {op : ClientConnect.Op} (other : op ≠ .createReadThread) :
    Handless r .modemSetupClientsConnect op := by
  cases op with
  | createReadThread => exact absurd rfl other
  | _ => cases r <;> rfl

theorem connect_own (op : ClientConnect.Op)
    (wanted : needed r .modemSetupClientsConnect op = true) :
    has r ⟨.modemSetupClientsConnect, .accepting⟩ = true := by
  cases r <;> cases op <;> first | rfl | cases wanted

theorem stateText_calls (texts : List (Connect.ConState × Bytes)) :
    (ClientConnect.stateText texts).Calls (Handless r .modemSetupClientsConnect) := by
  induction texts with
  | nil => trivial
  | cons text rest ih =>
      refine Prog.Calls.call (connect_handless nofun) fun same => ?_
      split
      · trivial
      · exact ih

theorem fill_calls (n : Int) (slots : List ClientState.Slot) :
    (ClientConnect.fill n slots).Calls (Handless r .modemSetupClientsConnect) := by
  induction slots with
  | nil => trivial
  | cons index rest ih =>
      refine Prog.Calls.call (connect_handless nofun) fun fd => ?_
      split
      · refine ⟨connect_handless nofun, fun _ => ⟨connect_handless nofun, fun _ => ?_⟩⟩
        apply (stateText_calls ClientConnect.stateTexts).bind
        intro text
        exact ⟨connect_handless nofun, fun _ => trivial⟩
      · split
        · exact ⟨connect_handless nofun, fun _ => ⟨connect_handless nofun, fun _ =>
            ⟨connect_handless nofun, fun _ => trivial⟩⟩⟩
        · exact ih

/-- The thread that accepts the clients hands on the right to read them. -/
theorem keeps_connect (l : ClientConnect.Local) :
    Keeps v b r .modemSetupClientsConnect l (ClientConnect.round l) := by
  cases l with
  | start =>
      apply Prog.Meets.call
      · cases r <;> nofun
      · intro _
        apply Prog.Meets.call
        · cases r <;> nofun
        · intro opened
          cases opened with
          | false => exact nofun
          | true =>
              apply Prog.Meets.call
              · intro wanted
                cases r <;> first | rfl | cases wanted
              · intro _ l same given
                cases same
                cases r <;> first | rfl | cases given
  | accepting =>
      apply Prog.Meets.call
      · intro wanted
        cases r <;> first | rfl | cases wanted
      · intro n
        have kept : ((right v b r).monitor .modemSetupClientsConnect).next
            (has r ⟨.modemSetupClientsConnect, .accepting⟩) .accept n =
              has r ⟨.modemSetupClientsConnect, .accepting⟩ := by
          cases r <;> rfl
        rw [kept]
        cases n with
        | none =>
            intro l same given
            cases same
            exact given
        | some n =>
            apply (meets_own (fill_calls n _) connect_own).bind
            intro _ held same l next given
            cases next
            rw [same]
            exact given

theorem listener_handless {op : ModemListener.Op} (other : op ≠ .createListenClients) :
    Handless r .modemCtrlListenModem op := by
  cases op with
  | createListenClients => exact absurd rfl other
  | _ => cases r <;> rfl

theorem perform_calls (acts : List Act) :
    (ModemListener.perform acts).Calls (Handless r .modemCtrlListenModem) := by
  induction acts with
  | nil => trivial
  | cons a rest ih => exact ⟨listener_handless nofun, fun _ => ih⟩

theorem readDevice_calls (fd : Device) :
    (ModemListener.readDevice v fd).Calls (Handless r .modemCtrlListenModem) := by
  refine ⟨listener_handless nofun, fun _ => ⟨listener_handless nofun, fun data => ?_⟩⟩
  cases data with
  | none => exact ⟨listener_handless nofun, fun _ => trivial⟩
  | some data =>
      refine ⟨listener_handless nofun, fun isReset => ?_⟩
      apply (perform_calls _).bind
      intro _
      exact ⟨listener_handless nofun, fun _ => trivial⟩

/-- A part of this thread, from the right that it has by then. -/
def ListenerKeeps (v : Variant) (b : Build) (r : Resource) (held : Bool)
    (p : ModemListener.ListenerProg (Option ModemListener.Local)) : Prop :=
  p.Meets ((right v b r).monitor .modemCtrlListenModem)
    (fun l' held => ∀ l₁, l' = some l₁ → has r ⟨.modemCtrlListenModem, l₁⟩ = true → held = true) held

theorem listener_call {op : ModemListener.Op} {held : Bool}
    {f : ModemListener.Op.Res op → ModemListener.ListenerProg (Option ModemListener.Local)}
    (other : op ≠ .createListenClients)
    (own : needed r .modemCtrlListenModem op = true → held = true)
    (rest : ∀ res, ListenerKeeps v b r held (f res)) :
    ListenerKeeps v b r held (ModemListener.call op >>= f) := by
  have handless : hands r .modemCtrlListenModem op = false := listener_handless other
  apply Prog.Meets.call
  · intro wanted
    have wanted : (needed r .modemCtrlListenModem op || hands r .modemCtrlListenModem op) = true :=
      wanted
    rw [handless, Bool.or_false] at wanted
    exact own wanted
  · intro res
    have same : ((right v b r).monitor .modemCtrlListenModem).next held op res = held := by
      simp [Right.monitor, right, handless]
    rw [same]
    exact rest res

theorem listener_ends {held : Bool} {l : ModemListener.Local}
    (later : has r ⟨.modemCtrlListenModem, l⟩ = true → held = true) :
    ListenerKeeps v b r held (.ret (some l)) := by
  intro l₁ same given
  cases same
  exact later given

/-- The thread hands on the right to load the modem. -/
theorem keeps_listenClients (assertDev procDev : Bytes) : ListenerKeeps v b r
    (has r ⟨.modemCtrlListenModem, .start⟩) (ModemListener.listenClients assertDev procDev) := by
  apply listener_call
  · nofun
  · cases r <;> nofun
  · intro alive
    refine Prog.Meets.call ?_ fun _ => ?_
    · intro wanted
      cases r <;> first | rfl | cases wanted
    · apply listener_ends
      intro given
      cases r <;> first | rfl | cases given

theorem keeps_openAlive (watchdog : Bool) (aliveDev : Option Bytes) : ListenerKeeps v b r
    (r == .modemDevices) (ModemListener.openAlive v watchdog aliveDev) := by
  have later (opened rfds : Finset Device)
      (given : has r ⟨.modemCtrlListenModem, .listening opened rfds⟩ = true) :
      (r == .modemDevices) = true := by
    cases r <;> first | rfl | cases given
  cases aliveDev with
  | none => exact listener_ends (later _ _)
  | some aliveDev =>
      apply listener_call
      · nofun
      · cases r <;> nofun
      · intro alive
        exact listener_ends (later _ _)

theorem keeps_listener (l : ModemListener.Local) :
    ListenerKeeps v b r (has r ⟨.modemCtrlListenModem, l⟩) (ModemListener.round v l) := by
  cases l with
  | start =>
      apply listener_call
      · nofun
      · cases r <;> nofun
      · intro assertDev
        cases v with
        | external => exact keeps_listenClients assertDev []
        | internal =>
            apply listener_call
            · nofun
            · cases r <;> nofun
            · intro procDev
              exact keeps_listenClients assertDev procDev
  | opening assertDev watchdogDev aliveDev =>
      have devices : has r ⟨.modemCtrlListenModem, .opening assertDev watchdogDev aliveDev⟩ =
          (r == .modemDevices) := by
        cases r <;> rfl
      rw [devices]
      apply listener_call
      · nofun
      · cases r <;> nofun
      · intro opened
        cases opened with
        | false => exact listener_ends fun given => devices ▸ given
        | true =>
            cases v with
            | external => exact keeps_openAlive false aliveDev
            | internal =>
                apply listener_call
                · nofun
                · cases r <;> nofun
                · intro watchdog
                  exact keeps_openAlive watchdog aliveDev
  | listening opened rfds =>
      have devices (opened rfds : Finset Device) :
          has r ⟨.modemCtrlListenModem, .listening opened rfds⟩ = (r == .modemDevices) := by
        cases r <;> rfl
      rw [devices]
      have own (op : ModemListener.Op) (wanted : needed r .modemCtrlListenModem op = true) :
          (r == .modemDevices) = true := by
        cases r <;> cases op <;> first | rfl | cases wanted
      refine listener_call ?_ (own _) fun answer => ?_
      · nofun
      have again (rfds : Finset Device) :
          ListenerKeeps v b r (r == .modemDevices) (.ret (some (.listening opened rfds))) :=
        listener_ends fun given => devices opened rfds ▸ given
      cases answer with
      | error eintr => exact again rfds
      | ready set =>
          have picked (p : Option Device) :
              ListenerKeeps v b r (r == .modemDevices) (ModemListener.readPicked v opened set p) := by
            cases p with
            | none => exact again set
            | some fd =>
                apply (meets_own (readDevice_calls fd) own).bind
                rintro _ _ rfl
                exact again set
          exact picked (if set = ∅ then none else pick opened set)

/-- A thread that is started with every right that it ever needs. -/
theorem keeps_simple {k : Kind} (l : Local k) (p : Prog (Op k) (Res k) (Option (Local k)))
    (simple : k ≠ .main ∧ k ≠ .modemSetupClientsConnect ∧ k ≠ .modemCtrlListenModem) :
    Keeps v b r k l p := by
  cases k with
  | main => exact absurd rfl simple.1
  | modemSetupClientsConnect => exact absurd rfl simple.2.1
  | modemCtrlListenModem => exact absurd rfl simple.2.2
  | _ =>
      apply keeps_own
      · intro op
        cases r <;> rfl
      · intro op wanted
        cases r <;> first | rfl | cases wanted
      · intro l₁
        cases r <;> rfl

theorem kept (v : Variant) (b : Build) (r : Resource) : (right v b r).Kept := by
  intro k l
  by_cases simple : k ≠ .main ∧ k ≠ .modemSetupClientsConnect ∧ k ≠ .modemCtrlListenModem
  · exact keeps_simple l _ simple
  · cases k with
    | main =>
        apply meets_main.bind
        intro _ _ _ l₁ next
        cases next
    | modemSetupClientsConnect => exact keeps_connect l
    | modemCtrlListenModem => exact keeps_listener l
    | _ => exact absurd (by decide) simple

end Others

/-- The threads at the start of the process. -/
def atStart (v : Variant) (b : Build) : List (fleet v b).Thread := [Fleet.start ⟨.main, ()⟩]

/-- However the threads are interleaved, whatever their calls come back with and whichever
    threads come to be, no two threads are in calls that need one of the resources at the same
    time. Above all no two are in `load_modem_img`. -/
theorem one_user (v : Variant) (b : Build) (r : Resource) (inputs : List (fleet v b).Input) :
    Throughout Fleet.step (right v b r).Alone (atStart v b) inputs :=
  Right.alone_throughout (kept v b r) ⟨.main, ()⟩ inputs

end ModemControl.Daemon
