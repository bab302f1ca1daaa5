import Riaps.Foundation.Runs
import Riaps.Deployment.ResourceManager

/-!
# What the shared monitors know of the actors

An actor that runs goes through the resource manager three times: it is started,
it registers, if it gets that far, and it is stopped. In between, the monitors of
space and of the network receive events of users and processes at any time. The
monitors should raise no exception, and keep nothing of an actor that does not
run.

What a monitor has of an actor is a row that is determined by its limits and by
how far it has come (`Follows`). Its device is entered when it registers, and
looked for both when it is stopped and when its user exceeds the quota. So there
is an exception when an actor is stopped that has not registered, if it has a
space limit, or a network limit on a host with a network monitor; and at a quota
event of a user one of whose actors has a space limit and has not registered.
These are all (`mirrors_iff`).
-/

namespace Riaps.Deployment

open Riaps.Foundation

/-! ### The space monitor -/

namespace SpcMonitor

variable {m : SpcMonitor}

/-- The names of a user are those that have it, each once. -/
structure Wf (m : SpcMonitor) : Prop where
  nodup : ∀ uid, ((m.uid2Name.get? uid).getD []).Nodup
  mem : ∀ uid name, name ∈ (m.uid2Name.get? uid).getD [] ↔ m.name2Uid.get? name = some uid

theorem Wf.addProc (h : m.Wf) {key : Text} (hnew : key ∉ m.name2Uid) (uid : ℕ) : (m.addProc key uid).Wf := by
  have hnone := Dict.get?_eq_none_iff.mpr hnew
  have hnot : ∀ u, key ∉ (m.uid2Name.get? u).getD [] := fun u hmem => by
    rw [h.mem, hnone] at hmem
    exact absurd hmem.symm (Option.some_ne_none u)
  have hget : ∀ u, ((m.addProc key uid).uid2Name.get? u).getD [] =
      if u = uid then (m.uid2Name.get? uid).getD [] ++ [key] else (m.uid2Name.get? u).getD [] := by
    intro u
    rw [SpcMonitor.addProc, Dict.get?_set]
    split_ifs <;> rfl
  constructor
  · intro u
    rw [hget]
    split_ifs
    · exact (h.nodup uid).append (List.nodup_singleton key) (by simpa using hnot uid)
    · exact h.nodup u
  · intro u name
    show _ ↔ (m.name2Uid.set key uid).get? name = some u
    rw [hget, Dict.get?_set]
    by_cases hname : name = key
    · subst hname
      by_cases hu : u = uid
      · simp [hu]
      · simp [hu, hnot u, Ne.symm hu]
    · rw [if_neg hname, ← h.mem]
      by_cases hu : u = uid <;> simp [hu, hname]

/-- An entry with its device is deleted. -/
theorem Wf.delProc_eq (h : m.Wf) {key : Text} {uid : ℕ} (huid : m.name2Uid.get? key = some uid) :
    m.delProc key =
      ({ m with
          uid2Name := m.uid2Name.set uid (((m.uid2Name.get? uid).getD []).erase key)
          name2Uid := m.name2Uid.del key
          devices := m.devices.del key }, decide (key ∈ m.devices)) := by
  have hmem := (h.mem uid key).mpr huid
  simp only [SpcMonitor.delProc, huid]
  cases hnames : m.uid2Name.get? uid with
  | none => simp [hnames] at hmem
  | some names =>
    rw [hnames, Option.getD_some] at hmem
    simp only [if_pos hmem, Option.getD_some]
    split_ifs with hdev
    · simp [hdev]
    · simp [hdev, Dict.del_of_notMem hdev]

theorem Wf.delProc (h : m.Wf) {key : Text} {uid : ℕ} (huid : m.name2Uid.get? key = some uid) :
    (m.delProc key).1.Wf := by
  rw [h.delProc_eq huid]
  have hget : ∀ u, ((m.uid2Name.set uid (((m.uid2Name.get? uid).getD []).erase key)).get? u).getD [] =
      if u = uid then ((m.uid2Name.get? uid).getD []).erase key else (m.uid2Name.get? u).getD [] := by
    intro u
    rw [Dict.get?_set]
    split_ifs <;> rfl
  constructor
  · intro u
    show (((m.uid2Name.set uid _).get? u).getD []).Nodup
    rw [hget]
    split_ifs
    · exact (h.nodup uid).erase key
    · exact h.nodup u
  · intro u name
    show name ∈ ((m.uid2Name.set uid _).get? u).getD [] ↔ (m.name2Uid.del key).get? name = some u
    rw [hget, Dict.get?_del]
    by_cases hu : u = uid
    · subst hu
      rw [if_pos rfl, (h.nodup u).mem_erase_iff, h.mem]
      by_cases hname : name = key <;> simp [hname]
    · rw [if_neg hu, h.mem]
      by_cases hname : name = key
      · subst hname
        simpa [huid] using Ne.symm hu
      · simp [hname]

/-- The loop goes through if every name has a device; it changes nothing else. -/
theorem notifyAll_spec (names : List Text) (m : SpcMonitor) :
    ((m.notifyAll names).2 = true ↔ ∀ name ∈ names, name ∈ m.devices) ∧
      (m.notifyAll names).1.uid2Name = m.uid2Name ∧ (m.notifyAll names).1.name2Uid = m.name2Uid ∧
      (m.notifyAll names).1.devices = m.devices ∧
      ((m.notifyAll names).2 = true → (m.notifyAll names).1.failed = m.failed) := by
  induction names generalizing m with
  | nil => simp [notifyAll]
  | cons name names ih =>
    rw [notifyAll]
    cases hget : m.devices.get? name with
    | none => simp [Dict.get?_eq_none_iff.mp hget]
    | some identity =>
      obtain ⟨hok, huid, hname, hdev, hfailed⟩ := ih { m with notified := m.notified ++ [identity] }
      refine ⟨?_, huid, hname, hdev, hfailed⟩
      simp only [hok, List.forall_mem_cons]
      exact (and_iff_right (Dict.mem_of_get? hget)).symm

end SpcMonitor

/-! ### Runs of actors -/

/-- A process of an actor that is running. -/
structure Life where
  pid : ℕ
  /-- Its real user. -/
  uid : ℕ
  /-- It has registered. -/
  registered : Bool
  deriving DecidableEq

/-- The resource manager and the actors that run. -/
structure ManagedActors where
  resm : ResourceManager
  lives : Dict Text Life
  /-- An operation or an event has raised an exception. -/
  raised : Bool

/-- What the resource manager is called for, and what its monitors receive. -/
inductive ResourceEvent where
  | setupApp (appName : AppName)
  | cleanupApp (appName : AppName)
  | addActor (appName : AppName) (actorName : Text) (memFiles : Bool) (usage : Option Usage)
  | startActor (appName : AppName) (actorName : Text) (pid uid : ℕ)
  /-- The registration. -/
  | addClientDevice (appName : AppName) (actorName : Text)
  | stopActor (appName : AppName) (actorName : Text)
  | quota (uid : ℕ)
  | rate (pid uid : ℕ) (sent : ℤ)

namespace ManagedActors

/-- No actor is known. -/
def start (cgroups : Cgroups) (netmon : Bool) : ManagedActors := ⟨.init cgroups netmon, .empty, false⟩

/-- Life cycles: an actor is added to an app that is set up, started if it is known and does not run, by a process with
a pid of its own, registered at most once, stopped if it runs; an app is cleaned up if none of its actors runs. -/
def allows (w : ManagedActors) : ResourceEvent → Bool
  | .setupApp _ | .quota _ | .rate .. => true
  | .cleanupApp appName =>
    appName ∈ w.resm.appMap ∧ ∀ key ∈ w.lives.keys, (splitName key).map Prod.fst ≠ some appName
  | .addActor appName .. => appName ∈ w.resm.appMap
  | .startActor appName actorName pid _ =>
    (w.resm.actor? appName actorName).isSome ∧ qualName appName actorName ∉ w.lives ∧
      ∀ i ∈ w.lives.items, i.2.pid ≠ pid
  | .addClientDevice appName actorName =>
    ((w.lives.get? (qualName appName actorName)).map Life.registered) = some false
  | .stopActor appName actorName => qualName appName actorName ∈ w.lives

/-- The monitors of an actor halt when they are stopped: a stop that waits for ever raises no exception, and there is no
state after it. -/
def halts : LimitKind → Bool := fun _ => true

/-- What an event does, and whether it goes through. -/
def outcome (w : ManagedActors) : ResourceEvent → ResourceManager × Bool
  | .setupApp appName => (w.resm.setupApp appName, true)
  | .cleanupApp appName => w.resm.cleanupApp appName
  | .addActor appName actorName memFiles usage => w.resm.addActor appName actorName memFiles usage
  | .startActor appName actorName pid uid => w.resm.startActor appName actorName pid uid
  | .addClientDevice appName actorName => w.resm.addClientDevice appName actorName
  | .stopActor appName actorName =>
    match w.lives.get? (qualName appName actorName) with
    | some life => w.resm.stopActor halts appName actorName life.pid
    | none => (w.resm, true)
  | .quota uid => w.resm.quotaEvent uid
  | .rate pid uid sent => w.resm.rateEvent pid uid sent

/-- Who runs after it. -/
def livesAfter (w : ManagedActors) : ResourceEvent → Dict Text Life
  | .startActor appName actorName pid uid => w.lives.set (qualName appName actorName) ⟨pid, uid, false⟩
  | .addClientDevice appName actorName =>
    match w.lives.get? (qualName appName actorName) with
    | some life => w.lives.set (qualName appName actorName) { life with registered := true }
    | none => w.lives
  | .stopActor appName actorName => w.lives.del (qualName appName actorName)
  | _ => w.lives

/-- One event, if the life cycles allow it. -/
def step (w : ManagedActors) (e : ResourceEvent) : ManagedActors :=
  if w.allows e then ⟨(w.outcome e).1, w.livesAfter e, w.raised || !(w.outcome e).2⟩ else w

/-- No exception was raised, and the monitors have nothing of an actor, or of a process, that does not run. -/
structure Mirrors (w : ManagedActors) : Prop where
  ok : w.raised = false
  uid : ∀ key ∉ w.lives, key ∉ w.resm.spcMonitor.name2Uid ∧
    ∀ uid, key ∉ (w.resm.spcMonitor.uid2Name.get? uid).getD []
  device : ∀ key ∉ w.lives, key ∉ w.resm.spcMonitor.devices ∧ ∀ net ∈ w.resm.netMonitor, key ∉ net.devices
  pid : ∀ pid, (∀ key life, w.lives.get? key = some life → life.pid ≠ pid) →
    ∀ net ∈ w.resm.netMonitor, pid ∉ net.pid2Key ∧ pid ∉ net.pid2Rate

/-- The entry of an actor that runs has a space limit. -/
def HasSpace (w : ManagedActors) (key : Text) : Prop :=
  ∃ named ∈ splitName key, ∃ a ∈ w.resm.actor? named.1 named.2, a.hasSpace = true

/-- An actor is entered into a shared monitor: into that of space, or into that of the network, if there is one. -/
def Shared (w : ManagedActors) (appName : AppName) (actorName : Text) : Prop :=
  ∃ a ∈ w.resm.actor? appName actorName,
    a.hasSpace = true ∨ w.resm.netMonitor.isSome ∧ (a.hasNet || a.hasRate) = true

/-- An event that raises no exception. -/
def Keeps (w : ManagedActors) : ResourceEvent → Prop
  | .addActor appName actorName _ usage =>
    w.resm.actor? appName actorName = none → ∀ u ∈ usage, u.spc ≠ some false
  | .stopActor appName actorName =>
    w.Shared appName actorName → ((w.lives.get? (qualName appName actorName)).map Life.registered) = some true
  | .quota uid => ∀ key life, w.lives.get? key = some life → life.uid = uid → w.HasSpace key → life.registered = true
  | _ => True

/-- Events that the life cycles do not allow do not happen. -/
def KeepsIfAllowed (w : ManagedActors) (e : ResourceEvent) : Prop := w.allows e → w.Keeps e

/-! ### What the monitors have of an actor that runs -/

/-- The network monitor's row of an actor. -/
structure NetRow (net : NetMonitor) (key : Text) (a : ActorResourceManager) (life : Life) : Prop where
  device : key ∈ net.devices ↔ (a.hasNet || a.hasRate) = true ∧ life.registered = true
  key : net.pid2Key.get? life.pid =
    if (a.hasNet || a.hasRate) ∧ life.registered then some key else if a.hasNet then some NetMonitor.noKey else none
  rate : net.pid2Rate.get? life.pid =
    if (a.hasNet || a.hasRate) ∧ life.registered then some (a.netRate.getD 0) else if a.hasNet then some 0 else none

/-- The entry of an actor, and the rows of the monitors, are those of a process that has come as far as `life`. -/
structure Follows (s : ResourceManager) (key : Text) (a : ActorResourceManager) (life : Life) : Prop where
  started : a.started = some true
  proc : a.proc = some life.pid
  cpu : ∀ m, a.cpu = .monitor m → m.proc = some life.pid
  mem : ∀ m ∈ a.mem, m.proc = some life.pid
  uid : s.spcMonitor.name2Uid.get? key = if a.hasSpace then some life.uid else none
  device : key ∈ s.spcMonitor.devices ↔ a.hasSpace = true ∧ life.registered = true
  net : ∀ net ∈ s.netMonitor, NetRow net key a life

/-- The invariant of runs without an exception. -/
structure Agrees (w : ManagedActors) : Prop where
  spc : w.resm.spcMonitor.Wf
  failed : w.resm.spcMonitor.failed = false
  alive : ∀ key life, w.lives.get? key = some life →
    ∃ appName actorName a, key = qualName appName actorName ∧ w.resm.actor? appName actorName = some a ∧
      Follows w.resm key a life
  dead : ∀ key ∉ w.lives, key ∉ w.resm.spcMonitor.name2Uid ∧ key ∉ w.resm.spcMonitor.devices ∧
    ∀ net ∈ w.resm.netMonitor, key ∉ net.devices
  idle : ∀ pid, (∀ key life, w.lives.get? key = some life → life.pid ≠ pid) →
    ∀ net ∈ w.resm.netMonitor, pid ∉ net.pid2Key ∧ pid ∉ net.pid2Rate
  pids : ∀ key key' life life', w.lives.get? key = some life → w.lives.get? key' = some life' →
    life.pid = life'.pid → key = key'

variable {w : ManagedActors}

/-- The invariant has what is wanted of the monitors. -/
theorem Agrees.mirrors (h : w.Agrees) (hok : w.raised = false) : w.Mirrors where
  ok := hok
  uid key hkey := by
    refine ⟨(h.dead key hkey).1, fun uid hmem => (h.dead key hkey).1 ?_⟩
    exact Dict.mem_of_get? ((h.spc.mem uid key).mp hmem)
  device key hkey := (h.dead key hkey).2
  pid := h.idle

/-- Two managers have the same rows under a key, -/
structure SameKey (s s' : ResourceManager) (key : Text) : Prop where
  uid : s'.spcMonitor.name2Uid.get? key = s.spcMonitor.name2Uid.get? key
  device : key ∈ s'.spcMonitor.devices ↔ key ∈ s.spcMonitor.devices
  net : ∀ net' ∈ s'.netMonitor, ∃ net ∈ s.netMonitor, (key ∈ net'.devices ↔ key ∈ net.devices)

/-- and of a process. -/
def SamePid (s s' : ResourceManager) (pid : ℕ) : Prop :=
  ∀ net' ∈ s'.netMonitor, ∃ net ∈ s.netMonitor,
    net'.pid2Key.get? pid = net.pid2Key.get? pid ∧ net'.pid2Rate.get? pid = net.pid2Rate.get? pid

theorem Follows.of_same {s s' : ResourceManager} {key : Text} {a : ActorResourceManager} {life : Life}
    (h : Follows s key a life) (hkey : SameKey s s' key) (hpid : SamePid s s' life.pid) : Follows s' key a life where
  started := h.started
  proc := h.proc
  cpu := h.cpu
  mem := h.mem
  uid := hkey.uid.trans h.uid
  device := hkey.device.trans h.device
  net net' hnet' := by
    obtain ⟨net, hnet, hdevice⟩ := hkey.net net' hnet'
    obtain ⟨net₂, hnet₂, hpidKey, hpidRate⟩ := hpid net' hnet'
    obtain rfl := Option.mem_unique hnet hnet₂
    have hrow := h.net net hnet
    exact ⟨hdevice.trans hrow.device, hpidKey.trans hrow.key, hpidRate.trans hrow.rate⟩

/-- Nothing changes for the actors that run. -/
theorem Agrees.of_same (h : w.Agrees) {s' : ResourceManager} {raised : Bool} (hspc : s'.spcMonitor.Wf)
    (hfailed : s'.spcMonitor.failed = false) (hkey : ∀ key, SameKey w.resm s' key)
    (hpid : ∀ pid, SamePid w.resm s' pid)
    (hactor : ∀ appName actorName, qualName appName actorName ∈ w.lives → ∀ a,
      w.resm.actor? appName actorName = some a → s'.actor? appName actorName = some a) :
    Agrees ⟨s', w.lives, raised⟩ where
  spc := hspc
  failed := hfailed
  alive key life hlife := by
    obtain ⟨appName, actorName, a, rfl, ha, hfollows⟩ := h.alive key life hlife
    exact ⟨appName, actorName, a, rfl, hactor _ _ (Dict.mem_of_get? hlife) a ha,
      hfollows.of_same (hkey _) (hpid _)⟩
  dead key hlife := by
    obtain ⟨huid, hdevice, hnet⟩ := h.dead key hlife
    refine ⟨?_, fun hmem => hdevice ((hkey key).device.mp hmem), fun net' hnet' hmem => ?_⟩
    · rw [← Dict.get?_eq_none_iff] at huid ⊢
      exact (hkey key).uid.trans huid
    · obtain ⟨net, hold, hiff⟩ := (hkey key).net net' hnet'
      exact hnet net hold (hiff.mp hmem)
  idle pid hidle net' hnet' := by
    obtain ⟨net, hold, hkeys, hrates⟩ := hpid pid net' hnet'
    obtain ⟨hno, hno'⟩ := h.idle pid hidle net hold
    rw [← Dict.get?_eq_none_iff] at hno hno' ⊢
    exact ⟨hkeys.trans hno, by rw [← Dict.get?_eq_none_iff, hrates, hno']⟩
  pids := h.pids

/-- What changes is the rows of one actor, under its key and of its process. -/
theorem Agrees.of_own (h : w.Agrees) {s' : ResourceManager} {lives : Dict Text Life} {raised : Bool} (key : Text)
    (pid : ℕ) (hspc : s'.spcMonitor.Wf) (hfailed : s'.spcMonitor.failed = false)
    (hkey : ∀ k ≠ key, SameKey w.resm s' k) (hpid : ∀ p ≠ pid, SamePid w.resm s' p)
    (hlives : ∀ k ≠ key, lives.get? k = w.lives.get? k)
    (hown : ∀ life, w.lives.get? key = some life → life.pid = pid)
    (hother : ∀ k ≠ key, ∀ life, w.lives.get? k = some life → life.pid ≠ pid)
    (hactor : ∀ appName actorName, qualName appName actorName ≠ key →
      s'.actor? appName actorName = w.resm.actor? appName actorName)
    (halive : ∀ life, lives.get? key = some life → life.pid = pid ∧
      ∃ appName actorName a, key = qualName appName actorName ∧ s'.actor? appName actorName = some a ∧
        Follows s' key a life)
    (hdead : key ∉ lives → (key ∉ s'.spcMonitor.name2Uid ∧ key ∉ s'.spcMonitor.devices ∧
      ∀ net ∈ s'.netMonitor, key ∉ net.devices) ∧ ∀ net ∈ s'.netMonitor, pid ∉ net.pid2Key ∧ pid ∉ net.pid2Rate) :
    Agrees ⟨s', lives, raised⟩ where
  spc := hspc
  failed := hfailed
  alive k life hlife := by
    by_cases hk : k = key
    · subst hk
      exact (halive life hlife).2
    · rw [hlives k hk] at hlife
      obtain ⟨appName, actorName, a, rfl, ha, hfollows⟩ := h.alive k life hlife
      exact ⟨appName, actorName, a, rfl, (hactor _ _ hk).trans ha,
        hfollows.of_same (hkey _ hk) (hpid _ (hother _ hk life hlife))⟩
  dead k hlife := by
    by_cases hk : k = key
    · subst hk
      exact (hdead hlife).1
    · have hold : k ∉ w.lives := by rwa [← Dict.get?_eq_none_iff, ← hlives k hk, Dict.get?_eq_none_iff]
      obtain ⟨huid, hdevice, hnet⟩ := h.dead k hold
      refine ⟨?_, fun hmem => hdevice ((hkey k hk).device.mp hmem), fun net' hnet' hmem => ?_⟩
      · rw [← Dict.get?_eq_none_iff] at huid ⊢
        exact (hkey k hk).uid.trans huid
      · obtain ⟨net, hin, hiff⟩ := (hkey k hk).net net' hnet'
        exact hnet net hin (hiff.mp hmem)
  idle p hidle net' hnet' := by
    by_cases hp : p = pid
    · subst hp
      refine (hdead fun hmem => ?_).2 net' hnet'
      obtain ⟨life, hlife⟩ := Dict.mem_iff_exists_get?.mp hmem
      exact hidle key life hlife (halive life hlife).1
    · obtain ⟨net, hin, hkeys, hrates⟩ := hpid p hp net' hnet'
      have hold : ∀ k life, w.lives.get? k = some life → life.pid ≠ p := by
        intro k life hlife
        by_cases hk : k = key
        · subst hk
          exact (hown life hlife).trans_ne (Ne.symm hp)
        · exact hidle k life ((hlives k hk).trans hlife)
      obtain ⟨hno, hno'⟩ := h.idle p hold net hin
      rw [← Dict.get?_eq_none_iff] at hno hno' ⊢
      exact ⟨hkeys.trans hno, by rw [← Dict.get?_eq_none_iff, hrates, hno']⟩
  pids k k' life life' hlife hlife' heq := by
    by_cases hk : k = key
    · by_cases hk' : k' = key
      · exact hk.trans hk'.symm
      · rw [hlives k' hk'] at hlife'
        exact absurd (heq.symm.trans (halive life (hk ▸ hlife)).1) (hother k' hk' life' hlife')
    · rw [hlives k hk] at hlife
      by_cases hk' : k' = key
      · exact absurd (heq.trans (halive life' (hk' ▸ hlife')).1) (hother k hk life hlife)
      · exact h.pids k k' life life' hlife ((hlives k' hk').symm.trans hlife') heq

/-! ### Apps and entries -/

theorem SameKey.of_eq {s s' : ResourceManager} (hspc : s'.spcMonitor = s.spcMonitor)
    (hnet : s'.netMonitor = s.netMonitor)
    (key : Text) : SameKey s s' key :=
  ⟨by rw [hspc], by rw [hspc], fun net' hnet' => ⟨net', hnet ▸ hnet', Iff.rfl⟩⟩

theorem SamePid.of_eq {s s' : ResourceManager} (hnet : s'.netMonitor = s.netMonitor) (pid : ℕ) : SamePid s s' pid :=
  fun net' hnet' => ⟨net', hnet ▸ hnet', rfl, rfl⟩

/-- Only the entries change, and not those of actors that run. -/
theorem Agrees.of_actors (h : w.Agrees) {s' : ResourceManager} {raised : Bool}
    (hspc : s'.spcMonitor = w.resm.spcMonitor)
    (hnet : s'.netMonitor = w.resm.netMonitor)
    (hactor : ∀ appName actorName, qualName appName actorName ∈ w.lives → ∀ a,
      w.resm.actor? appName actorName = some a → s'.actor? appName actorName = some a) :
    Agrees ⟨s', w.lives, raised⟩ :=
  h.of_same (hspc ▸ h.spc) (hspc ▸ h.failed) (SameKey.of_eq hspc hnet) (SamePid.of_eq hnet) hactor

theorem Agrees.setupApp (h : w.Agrees) (appName : AppName) (raised : Bool) :
    Agrees ⟨w.resm.setupApp appName, w.lives, raised⟩ := by
  rw [ResourceManager.setupApp]
  split_ifs with hmem
  · exact h.of_actors rfl rfl fun _ _ _ _ ha => ha
  · refine h.of_actors rfl rfl fun app actorName _ a ha => ?_
    have hne : app ≠ appName := by
      rintro rfl
      rw [ResourceManager.actor?, Dict.get?_eq_none_iff.mpr hmem] at ha
      exact absurd ha (Option.some_ne_none a).symm
    rw [← ha]
    exact ResourceManager.actor?_congr (Dict.get?_set_of_ne _ _ hne)

theorem Agrees.cleanupApp (h : w.Agrees) {appName : AppName} (ha : w.allows (.cleanupApp appName)) :
    (w.resm.cleanupApp appName).2 = true ∧ ∀ raised, Agrees ⟨(w.resm.cleanupApp appName).1, w.lives, raised⟩ := by
  simp only [allows, decide_eq_true_eq] at ha
  rw [ResourceManager.cleanupApp, if_pos ha.1]
  refine ⟨rfl, fun raised => h.of_actors rfl rfl fun app actorName hlive a hentry => ?_⟩
  have hne : app ≠ appName := by
    rintro rfl
    exact ha.2 _ hlive (by rw [splitName_qualName]; rfl)
  rw [← hentry]
  refine ResourceManager.actor?_congr ?_
  rw [Dict.get?_del, if_neg hne]

theorem new_eq_none_iff (cgroups : Cgroups) (memFiles : Bool) (usage : Option Usage) :
    ActorResourceManager.new cgroups memFiles usage = none ↔ ∃ u ∈ usage, u.spc = some false := by
  cases usage with
  | none => simp [ActorResourceManager.new]
  | some u =>
    rw [ActorResourceManager.new]
    simp

theorem Agrees.addActor (h : w.Agrees) {appName : AppName} {actorName : Text} {memFiles : Bool} {usage : Option Usage}
    (ha : w.allows (.addActor appName actorName memFiles usage)) :
    ((w.resm.addActor appName actorName memFiles usage).2 = true ↔
        (w.resm.actor? appName actorName = none → ∀ u ∈ usage, u.spc ≠ some false)) ∧
      ∀ raised, Agrees ⟨(w.resm.addActor appName actorName memFiles usage).1, w.lives, raised⟩ := by
  have happ : appName ∈ w.resm.appMap := by simpa [allows] using ha
  rw [ResourceManager.addActor, if_pos happ]
  cases hentry : w.resm.actor? appName actorName with
  | some a => exact ⟨by simp, fun raised => h.of_actors rfl rfl fun _ _ _ _ ha => ha⟩
  | none =>
    have hiff := new_eq_none_iff w.resm.cgroups memFiles usage
    cases hnew : ActorResourceManager.new w.resm.cgroups memFiles usage with
    | none =>
      obtain ⟨u, hu, hspc⟩ := hiff.mp hnew
      refine ⟨iff_of_false Bool.false_ne_true fun hall => hall rfl u hu hspc, fun raised => ?_⟩
      exact h.of_actors rfl rfl fun _ _ _ _ ha => ha
    | some a =>
      refine ⟨iff_of_true rfl fun _ u hu hspc => ?_, fun raised => ?_⟩
      · exact absurd (hiff.mpr ⟨u, hu, hspc⟩) (by simp [hnew])
      · refine h.of_actors rfl rfl fun app actor _ b hb => ?_
        rw [ResourceManager.actor?_setActor, if_neg, hb]
        intro heq
        obtain ⟨rfl, rfl⟩ := qualName_inj heq
        exact absurd (hb.symm.trans hentry) (Option.some_ne_none b)

/-! ### Starting -/

theorem mem_ite_map {α : Type} {b : Bool} {f : α → α} {o : Option α} {x : α} :
    x ∈ (if b = true then o.map f else o) ↔ ∃ y ∈ o, x = if b = true then f y else y := by
  cases b <;> cases o <;> simp [eq_comm]

theorem Agrees.startActor (h : w.Agrees) {appName : AppName} {actorName : Text} {pid uid : ℕ}
    (ha : w.allows (.startActor appName actorName pid uid)) :
    (w.resm.startActor appName actorName pid uid).2 = true ∧
      ∀ raised, Agrees ⟨(w.resm.startActor appName actorName pid uid).1,
        w.lives.set (qualName appName actorName) ⟨pid, uid, false⟩, raised⟩ := by
  simp only [allows, decide_eq_true_eq, Option.isSome_iff_exists] at ha
  obtain ⟨⟨a, hentry⟩, hnew, hfresh⟩ := ha
  have hpids : ∀ k life, w.lives.get? k = some life → life.pid ≠ pid :=
    fun k life hlife => hfresh _ (Dict.get?_eq_some_iff.mp hlife)
  obtain ⟨huid, hdevice, hnet⟩ := h.dead _ hnew
  have hspc : ∀ k, k ≠ qualName appName actorName →
      (if a.hasSpace = true then w.resm.spcMonitor.addProc (qualName appName actorName) uid
        else w.resm.spcMonitor).name2Uid.get? k = w.resm.spcMonitor.name2Uid.get? k := by
    intro k hk
    split_ifs
    exacts [Dict.get?_set_of_ne _ _ hk, rfl]
  have hdevices : (if a.hasSpace = true then w.resm.spcMonitor.addProc (qualName appName actorName) uid
      else w.resm.spcMonitor).devices = w.resm.spcMonitor.devices := by
    split_ifs <;> rfl
  rw [ResourceManager.startActor_eq hentry]
  refine ⟨rfl, fun raised => ?_⟩
  refine h.of_own (qualName appName actorName) pid ?_ ?_ (fun k hk => ⟨hspc k hk, ?_, ?_⟩) (fun p hp => ?_)
    (fun k hk => Dict.get?_set_of_ne _ _ hk) (fun life hlife => absurd (Dict.mem_of_get? hlife) hnew)
    (fun k _ life hlife => hpids k life hlife) (fun app actor hne => ?_) (fun life hlife => ?_)
    (fun hno => absurd (Dict.mem_set.mpr (.inl rfl)) hno)
  · show (if a.hasSpace = true then _ else w.resm.spcMonitor).Wf
    split_ifs
    exacts [h.spc.addProc huid uid, h.spc]
  · show (if a.hasSpace = true then _ else w.resm.spcMonitor).failed = false
    split_ifs
    exacts [h.failed, h.failed]
  · show k ∈ (if a.hasSpace = true then _ else w.resm.spcMonitor).devices ↔ _
    rw [hdevices]
  · intro net' hnet'
    obtain ⟨net, hin, rfl⟩ := mem_ite_map.mp hnet'
    refine ⟨net, hin, ?_⟩
    split_ifs <;> exact Iff.rfl
  · intro net' hnet'
    obtain ⟨net, hin, rfl⟩ := mem_ite_map.mp hnet'
    refine ⟨net, hin, ?_⟩
    split_ifs
    exacts [⟨Dict.get?_set_of_ne _ _ hp, Dict.get?_set_of_ne _ _ hp⟩, ⟨rfl, rfl⟩]
  · rw [ResourceManager.actor?_setActor, if_neg hne]
    rfl
  · rw [Dict.get?_set_self] at hlife
    obtain rfl := Option.some.inj hlife
    refine ⟨rfl, appName, actorName, a.start pid, rfl, by rw [ResourceManager.actor?_setActor, if_pos rfl], ?_⟩
    obtain ⟨hno, hno'⟩ : (∀ net ∈ w.resm.netMonitor, net.pid2Key.get? pid = none) ∧
        ∀ net ∈ w.resm.netMonitor, net.pid2Rate.get? pid = none :=
      ⟨fun net hin => Dict.get?_eq_none_iff.mpr (h.idle pid hpids net hin).1,
        fun net hin => Dict.get?_eq_none_iff.mpr (h.idle pid hpids net hin).2⟩
    constructor
    · rfl
    · rfl
    · intro m hm
      cases hcpu : a.cpu with
      | none => simp [ActorResourceManager.start, hcpu] at hm
      | group => simp [ActorResourceManager.start, hcpu] at hm
      | monitor m₀ =>
        simp only [ActorResourceManager.start, hcpu, CpuLimit.monitor.injEq] at hm
        rw [← hm, UsageMonitor.setup]
        split_ifs <;> rfl
    · intro m hm
      obtain ⟨m₀, -, rfl⟩ := Option.map_eq_some_iff.mp hm
      rw [UsageMonitor.setup]
      split_ifs <;> rfl
    · show (if a.hasSpace = true then _ else w.resm.spcMonitor).name2Uid.get? _ = if a.hasSpace then some uid else none
      split_ifs
      exacts [Dict.get?_set_self .., Dict.get?_eq_none_iff.mpr huid]
    · show _ ∈ (if a.hasSpace = true then _ else w.resm.spcMonitor).devices ↔ a.hasSpace = true ∧ false = true
      rw [hdevices]
      simp [hdevice]
    · intro net' hnet'
      obtain ⟨net, hin, rfl⟩ := mem_ite_map.mp hnet'
      have hflags : (a.start pid).hasNet = a.hasNet ∧ (a.start pid).hasRate = a.hasRate := ⟨rfl, rfl⟩
      refine ⟨?_, ?_, ?_⟩
      · cases hhas : a.hasNet <;> simpa [NetMonitor.addProc] using hnet net hin
      · cases hhas : a.hasNet <;> simp [NetMonitor.addProc, hflags, hhas, hno net hin]
      · cases hhas : a.hasNet <;> simp [NetMonitor.addProc, hflags, hhas, hno' net hin]

/-! ### Registration -/

/-- A monitor that has the process takes the device. -/
theorem usage_addClientDevice {m : UsageMonitor} {pid : ℕ} (hm : m.proc = some pid) (appName : AppName)
    (actorName : Text) :
    ∃ m', m.addClientDevice appName actorName = (m', true) ∧ m'.proc = some pid := by
  simp only [UsageMonitor.addClientDevice, hm]
  exact ⟨_, rfl, rfl⟩

/-- The actor's own monitors, where they have its process, take its device, and the limits stay. -/
theorem own_addClientDevice {a : ActorResourceManager} {pid : ℕ} (hcpu : ∀ m, a.cpu = .monitor m → m.proc = some pid)
    (hmem : ∀ m ∈ a.mem, m.proc = some pid) (appName : AppName) (actorName : Text) :
    ∃ cpu mem, a.addClientDevice appName actorName = ({ a with cpu := cpu, mem := mem }, true) ∧
      (∀ m, cpu = .monitor m → m.proc = some pid) ∧ ∀ m ∈ mem, m.proc = some pid := by
  have hcpu' : ∃ cpu, (∀ m, cpu = .monitor m → m.proc = some pid) ∧
      a.addClientDevice appName actorName = a.mem.elim ({ a with cpu := cpu }, true) fun m =>
        ({ a with cpu := cpu, mem := some (m.addClientDevice appName actorName).1 },
          (m.addClientDevice appName actorName).2) := by
    cases hc : a.cpu with
    | none | group =>
      refine ⟨a.cpu, hcpu, ?_⟩
      rw [ActorResourceManager.addClientDevice, hc]
      cases a.mem <;> rfl
    | monitor m =>
      obtain ⟨m', heq, hproc⟩ := usage_addClientDevice (hcpu m hc) appName actorName
      refine ⟨.monitor m', fun m₂ hm₂ => CpuLimit.monitor.inj hm₂ ▸ hproc, ?_⟩
      simp only [ActorResourceManager.addClientDevice, hc, heq]
      cases a.mem <;> rfl
  obtain ⟨cpu, hproc, heq⟩ := hcpu'
  rw [heq]
  cases hm : a.mem with
  | none => exact ⟨cpu, none, by rw [Option.elim_none, ← hm], hproc, fun m hin => absurd hin (Option.not_mem_none m)⟩
  | some m =>
    obtain ⟨m', hdev, hproc'⟩ := usage_addClientDevice (hmem m hm) appName actorName
    refine ⟨cpu, some m', by rw [Option.elim_some, hdev], hproc, fun m₂ hm₂ => ?_⟩
    obtain rfl := Option.some.inj hm₂
    exact hproc'

theorem Agrees.addClientDevice (h : w.Agrees) {appName : AppName} {actorName : Text}
    (ha : w.allows (.addClientDevice appName actorName)) :
    (w.outcome (.addClientDevice appName actorName)).2 = true ∧
      ∀ raised, Agrees ⟨(w.outcome (.addClientDevice appName actorName)).1,
        w.livesAfter (.addClientDevice appName actorName), raised⟩ := by
  simp only [allows, decide_eq_true_eq, Option.map_eq_some_iff] at ha
  obtain ⟨life, hlife, hreg⟩ := ha
  obtain ⟨app, actor, a, hname, hentry, hfollows⟩ := h.alive _ life hlife
  obtain ⟨rfl, rfl⟩ := qualName_inj hname
  obtain ⟨cpu, mem, hown, hcpu, hmem⟩ := own_addClientDevice hfollows.cpu hfollows.mem appName actorName
  simp only [outcome, livesAfter, hlife]
  rw [ResourceManager.addClientDevice_eq hentry hfollows.proc (by rw [hown])]
  refine ⟨rfl, fun raised => ?_⟩
  refine h.of_own (qualName appName actorName) life.pid ?_ ?_ (fun k hk => ⟨?_, ?_, ?_⟩) (fun p hp => ?_)
    (fun k hk => Dict.get?_set_of_ne _ _ hk) (fun life' hlife' => by rw [Option.some.inj (hlife.symm.trans hlife')])
    (fun k hk life' hlife' hpid => hk (h.pids _ _ _ _ hlife' hlife hpid)) (fun app actor hne => ?_)
    (fun life' hlife' => ?_) (fun hno => absurd (Dict.mem_set.mpr (.inl rfl)) hno)
  · show (if a.hasSpace = true then _ else w.resm.spcMonitor).Wf
    split_ifs
    exacts [⟨h.spc.nodup, h.spc.mem⟩, h.spc]
  · show (if a.hasSpace = true then _ else w.resm.spcMonitor).failed = false
    split_ifs
    exacts [h.failed, h.failed]
  · show (if a.hasSpace = true then _ else w.resm.spcMonitor).name2Uid.get? k = _
    split_ifs <;> rfl
  · show k ∈ (if a.hasSpace = true then _ else w.resm.spcMonitor).devices ↔ _
    split_ifs
    · exact Dict.mem_set.trans (or_iff_right hk)
    · exact Iff.rfl
  · intro net' hnet'
    obtain ⟨net, hin, rfl⟩ := mem_ite_map.mp hnet'
    refine ⟨net, hin, ?_⟩
    split_ifs
    · exact Dict.mem_set.trans (or_iff_right hk)
    · exact Iff.rfl
  · intro net' hnet'
    obtain ⟨net, hin, rfl⟩ := mem_ite_map.mp hnet'
    refine ⟨net, hin, ?_⟩
    split_ifs
    exacts [⟨Dict.get?_set_of_ne _ _ hp, Dict.get?_set_of_ne _ _ hp⟩, ⟨rfl, rfl⟩]
  · exact (ResourceManager.actor?_setActor ..).trans (if_neg hne)
  · rw [Dict.get?_set_self] at hlife'
    obtain rfl := Option.some.inj hlife'
    refine ⟨rfl, appName, actorName, _, rfl, (ResourceManager.actor?_setActor ..).trans (if_pos rfl), ?_⟩
    rw [hown]
    constructor
    · exact hfollows.started
    · exact hfollows.proc
    · exact hcpu
    · exact hmem
    · show (if a.hasSpace = true then _ else w.resm.spcMonitor).name2Uid.get? _ =
        if a.hasSpace then some life.uid else none
      rw [← hfollows.uid]
      split_ifs <;> rfl
    · show _ ∈ (if a.hasSpace = true then _ else w.resm.spcMonitor).devices ↔ a.hasSpace = true ∧ true = true
      have hdevice := hfollows.device
      split_ifs with hspc
      · simp [SpcMonitor.addClientDevice, hspc]
      · simpa [hspc] using hdevice
    · intro net' hnet'
      obtain ⟨net, hin, rfl⟩ := mem_ite_map.mp hnet'
      have hrow := hfollows.net net hin
      by_cases hlim : (a.hasNet || a.hasRate) = true
      · refine ⟨?_, ?_, ?_⟩ <;> simp [NetMonitor.addClientDevice, hlim]
      · obtain ⟨hnoNet, hnoRate⟩ : a.hasNet = false ∧ a.hasRate = false := by simpa using hlim
        refine ⟨?_, ?_, ?_⟩
        · simpa [hnoNet, hnoRate] using hrow.device
        · simpa [hnoNet, hnoRate] using hrow.key
        · simpa [hnoNet, hnoRate] using hrow.rate

/-! ### Stopping -/

/-- A row with a device is deleted, and one without is not. -/
theorem NetRow.delProc {net : NetMonitor} {key : Text} {a : ActorResourceManager} {life : Life}
    (h : NetRow net key a life) (hlim : (a.hasNet || a.hasRate) = true) :
    ((net.delProc key life.pid).2 = true ↔ life.registered = true) ∧
      (life.registered = true → (net.delProc key life.pid).1 =
        { net with
          devices := net.devices.del key
          pid2Key := net.pid2Key.del life.pid
          pid2Rate := net.pid2Rate.del life.pid }) := by
  by_cases hreg : life.registered = true
  · have hdevice := h.device.mpr ⟨hlim, hreg⟩
    have hkey : life.pid ∈ net.pid2Key := Dict.mem_of_get? (h.key.trans (if_pos ⟨hlim, hreg⟩))
    have hrate : life.pid ∈ net.pid2Rate := Dict.mem_of_get? (h.rate.trans (if_pos ⟨hlim, hreg⟩))
    simp [NetMonitor.delProc, hdevice, hkey, hrate, hreg]
  · have hdevice : key ∉ net.devices := fun hmem => hreg (h.device.mp hmem).2
    simp [NetMonitor.delProc, hdevice, hreg]

/-- An actor that runs is stopped without an exception if it has registered, or is in no shared monitor. -/
theorem Agrees.stopActor_ok (h : w.Agrees) {appName : AppName} {actorName : Text} {a : ActorResourceManager}
    {life : Life} (hentry : w.resm.actor? appName actorName = some a)
    (hfollows : Follows w.resm (qualName appName actorName) a life) :
    (w.resm.stopActor halts appName actorName life.pid).2 = true ↔
      (w.Shared appName actorName → life.registered = true) := by
  have hspace : a.hasSpace = true →
      ((w.resm.spcMonitor.delProc (qualName appName actorName)).2 = true ↔ life.registered = true) := by
    intro hspace
    have huid := hfollows.uid.trans (if_pos hspace)
    rw [h.spc.delProc_eq huid, decide_eq_true_iff, hfollows.device, and_iff_right hspace]
  have hnet : ∀ net ∈ w.resm.netMonitor, (a.hasNet || a.hasRate) = true →
      ((net.delProc (qualName appName actorName) life.pid).2 = true ↔ life.registered = true) :=
    fun net hin hlim => ((hfollows.net net hin).delProc hlim).1
  rw [ResourceManager.stopActor_ok_iff hentry hfollows.started]
  constructor
  · rintro ⟨-, hspc, hnets⟩ ⟨b, hb, hshared⟩
    obtain rfl := Option.some.inj (hentry.symm.trans hb)
    rcases hshared with hhas | ⟨hsome, hlim⟩
    · exact (hspace hhas).mp (hspc hhas)
    · obtain ⟨net, hin⟩ := Option.isSome_iff_exists.mp hsome
      exact (hnet net hin hlim).mp (hnets net hin hlim)
  · intro hreg
    refine ⟨fun _ _ => rfl, fun hhas => (hspace hhas).mpr (hreg ⟨a, hentry, .inl hhas⟩), fun net hin hlim => ?_⟩
    exact (hnet net hin hlim).mpr (hreg ⟨a, hentry, .inr ⟨Option.isSome_iff_exists.mpr ⟨net, hin⟩, hlim⟩⟩)

theorem Agrees.stopActor (h : w.Agrees) {appName : AppName} {actorName : Text} {a : ActorResourceManager}
    {life : Life} (hlife : w.lives.get? (qualName appName actorName) = some life)
    (hentry : w.resm.actor? appName actorName = some a)
    (hfollows : Follows w.resm (qualName appName actorName) a life)
    (hok : (w.resm.stopActor halts appName actorName life.pid).2 = true) (raised : Bool) :
    Agrees
      ⟨(w.resm.stopActor halts appName actorName life.pid).1, w.lives.del (qualName appName actorName), raised⟩ := by
  obtain ⟨-, hspace, hnets⟩ := (ResourceManager.stopActor_ok_iff hentry hfollows.started halts life.pid).mp hok
  have hdel : a.hasSpace = true → w.resm.spcMonitor.delProc (qualName appName actorName) = _ := fun hspc =>
    h.spc.delProc_eq (hfollows.uid.trans (if_pos hspc))
  have hreg : ∀ net ∈ w.resm.netMonitor, (a.hasNet || a.hasRate) = true → life.registered = true :=
    fun net hin hlim => ((hfollows.net net hin).delProc hlim).1.mp (hnets net hin hlim)
  have hrow : ∀ net ∈ w.resm.netMonitor, (a.hasNet || a.hasRate) = true →
      (net.delProc (qualName appName actorName) life.pid).1 = _ :=
    fun net hin hlim => ((hfollows.net net hin).delProc hlim).2 (hreg net hin hlim)
  rw [ResourceManager.stopActor_fst hentry hfollows.started hok]
  refine h.of_own (qualName appName actorName) life.pid ?_ ?_ (fun k hk => ⟨?_, ?_, ?_⟩) (fun p hp => ?_)
    (fun k hk => by rw [Dict.get?_del, if_neg hk])
    (fun life' hlife' => by rw [Option.some.inj (hlife.symm.trans hlife')])
    (fun k hk life' hlife' hpid => hk (h.pids _ _ _ _ hlife' hlife hpid)) (fun app actor hne => ?_)
    (fun life' hlife' => ?_) (fun _ => ⟨⟨?_, ?_, ?_⟩, ?_⟩)
  · show (if a.hasSpace = true then (w.resm.spcMonitor.delProc _).1 else w.resm.spcMonitor).Wf
    split_ifs with hspc
    exacts [h.spc.delProc (hfollows.uid.trans (if_pos hspc)), h.spc]
  · show (if a.hasSpace = true then (w.resm.spcMonitor.delProc _).1 else w.resm.spcMonitor).failed = false
    split_ifs with hspc
    · rw [hdel hspc]
      exact h.failed
    · exact h.failed
  · show (if a.hasSpace = true then (w.resm.spcMonitor.delProc _).1 else w.resm.spcMonitor).name2Uid.get? k = _
    split_ifs with hspc
    · rw [hdel hspc]
      exact (Dict.get?_del ..).trans (if_neg hk)
    · rfl
  · show k ∈ (if a.hasSpace = true then (w.resm.spcMonitor.delProc _).1 else w.resm.spcMonitor).devices ↔ _
    split_ifs with hspc
    · rw [hdel hspc]
      exact Dict.mem_del.trans (and_iff_left hk)
    · exact Iff.rfl
  · intro net' hnet'
    obtain ⟨net, hin, rfl⟩ := mem_ite_map.mp hnet'
    refine ⟨net, hin, ?_⟩
    split_ifs with hlim
    · rw [hrow net hin hlim]
      exact Dict.mem_del.trans (and_iff_left hk)
    · exact Iff.rfl
  · intro net' hnet'
    obtain ⟨net, hin, rfl⟩ := mem_ite_map.mp hnet'
    refine ⟨net, hin, ?_⟩
    split_ifs with hlim
    · rw [hrow net hin hlim]
      exact ⟨(Dict.get?_del ..).trans (if_neg hp), (Dict.get?_del ..).trans (if_neg hp)⟩
    · exact ⟨rfl, rfl⟩
  · rw [ResourceManager.actor?_setActor, if_neg hne]
    exact (ResourceManager.actor?_setActor ..).trans (if_neg hne)
  · rw [Dict.get?_del, if_pos rfl] at hlife'
    exact absurd hlife'.symm (Option.some_ne_none _)
  · show _ ∉ (if a.hasSpace = true then (w.resm.spcMonitor.delProc _).1 else w.resm.spcMonitor).name2Uid
    split_ifs with hspc
    · rw [hdel hspc]
      exact fun hmem => (Dict.mem_del.mp hmem).2 rfl
    · exact Dict.get?_eq_none_iff.mp (hfollows.uid.trans (if_neg hspc))
  · show _ ∉ (if a.hasSpace = true then (w.resm.spcMonitor.delProc _).1 else w.resm.spcMonitor).devices
    split_ifs with hspc
    · rw [hdel hspc]
      exact fun hmem => (Dict.mem_del.mp hmem).2 rfl
    · exact fun hmem => hspc (hfollows.device.mp hmem).1
  · intro net' hnet'
    obtain ⟨net, hin, rfl⟩ := mem_ite_map.mp hnet'
    split_ifs with hlim
    · rw [hrow net hin hlim]
      exact fun hmem => (Dict.mem_del.mp hmem).2 rfl
    · exact fun hmem => hlim ((hfollows.net net hin).device.mp hmem).1
  · intro net' hnet'
    obtain ⟨net, hin, rfl⟩ := mem_ite_map.mp hnet'
    split_ifs with hlim
    · rw [hrow net hin hlim]
      exact ⟨fun hmem => (Dict.mem_del.mp hmem).2 rfl, fun hmem => (Dict.mem_del.mp hmem).2 rfl⟩
    · obtain ⟨hnoNet, hnoRate⟩ : a.hasNet = false ∧ a.hasRate = false := by simpa using hlim
      have hnone := hfollows.net net hin
      exact ⟨Dict.get?_eq_none_iff.mp (by simpa [hnoNet, hnoRate] using hnone.key),
        Dict.get?_eq_none_iff.mp (by simpa [hnoNet, hnoRate] using hnone.rate)⟩

/-! ### Events -/

theorem Agrees.quota (h : w.Agrees) (uid : ℕ) :
    ((w.resm.quotaEvent uid).2 = true ↔ w.Keeps (.quota uid)) ∧
      ((w.resm.quotaEvent uid).2 = true → ∀ raised, Agrees ⟨(w.resm.quotaEvent uid).1, w.lives, raised⟩) := by
  have hevent : w.resm.spcMonitor.quotaEvent uid =
      w.resm.spcMonitor.notifyAll ((w.resm.spcMonitor.uid2Name.get? uid).getD []) := by
    rw [SpcMonitor.quotaEvent, h.failed]
    rfl
  obtain ⟨hok, huid, hname, hdev, hfailed⟩ :=
    SpcMonitor.notifyAll_spec ((w.resm.spcMonitor.uid2Name.get? uid).getD []) w.resm.spcMonitor
  rw [← hevent] at hok huid hname hdev hfailed
  refine ⟨hok.trans ⟨?_, ?_⟩, fun hgood raised => ?_⟩
  · intro hall key life hlife hlifeUid hspace
    obtain ⟨appName, actorName, a, rfl, hentry, hfollows⟩ := h.alive key life hlife
    obtain ⟨named, hsplit, b, hb, hhas⟩ := hspace
    rw [splitName_qualName, Option.mem_some_iff] at hsplit
    subst hsplit
    obtain rfl := Option.some.inj (hentry.symm.trans hb)
    refine (hfollows.device.mp (hall _ ((h.spc.mem uid _).mpr ?_))).2
    rw [hfollows.uid, if_pos hhas, hlifeUid]
  · intro hkeeps name hmem
    have hname := (h.spc.mem uid name).mp hmem
    by_cases hlive : name ∈ w.lives
    · obtain ⟨life, hlife⟩ := Dict.mem_iff_exists_get?.mp hlive
      obtain ⟨appName, actorName, a, rfl, hentry, hfollows⟩ := h.alive name life hlife
      have hrow := hfollows.uid.symm.trans hname
      split_ifs at hrow with hhas
      refine hfollows.device.mpr ⟨hhas, hkeeps _ life hlife (Option.some.inj hrow) ?_⟩
      exact ⟨(appName, actorName), splitName_qualName appName actorName, a, hentry, hhas⟩
    · exact absurd (Dict.mem_of_get? hname) (h.dead name hlive).1
  · refine h.of_same ⟨fun u => ?_, fun u name => ?_⟩ ((hfailed hgood).trans h.failed) (fun key => ⟨?_, ?_, ?_⟩)
      (SamePid.of_eq rfl) fun _ _ _ a ha => ha
    · show ((w.resm.spcMonitor.quotaEvent uid).1.uid2Name.get? u |>.getD []).Nodup
      rw [huid]
      exact h.spc.nodup u
    · show name ∈ ((w.resm.spcMonitor.quotaEvent uid).1.uid2Name.get? u).getD [] ↔
        (w.resm.spcMonitor.quotaEvent uid).1.name2Uid.get? name = some u
      rw [huid, hname]
      exact h.spc.mem u name
    · exact congrArg (Dict.get? · key) hname
    · show key ∈ (w.resm.spcMonitor.quotaEvent uid).1.devices ↔ _
      rw [hdev]
    · exact fun net' hnet' => ⟨net', hnet', Iff.rfl⟩

/-- The callback of the network monitor raises nothing: a process with a rate has its device. -/
theorem Agrees.rate (h : w.Agrees) (pid uid : ℕ) (sent : ℤ) :
    (w.resm.rateEvent pid uid sent).2 = true ∧
      ∀ raised, Agrees ⟨(w.resm.rateEvent pid uid sent).1, w.lives, raised⟩ := by
  have hactivity : ∀ net ∈ w.resm.netMonitor, (net.activity pid uid sent).2 = true ∧
      (net.activity pid uid sent).1.devices = net.devices ∧ (net.activity pid uid sent).1.pid2Key = net.pid2Key ∧
      (net.activity pid uid sent).1.pid2Rate = net.pid2Rate := by
    intro net hin
    rw [NetMonitor.activity]
    split_ifs with hzero
    · exact ⟨rfl, rfl, rfl, rfl⟩
    cases hkey : net.pid2Key.get? pid with
    | none => exact ⟨rfl, rfl, rfl, rfl⟩
    | some key =>
      -- the process is that of an actor that runs
      have hlive : ∃ k life, w.lives.get? k = some life ∧ life.pid = pid := by
        by_contra hno
        refine (h.idle pid (fun k life hlife hpid => hno ⟨k, life, hlife, hpid⟩) net hin).1 ?_
        exact Dict.mem_of_get? hkey
      obtain ⟨k, life, hlife, rfl⟩ := hlive
      obtain ⟨appName, actorName, a, -, -, hfollows⟩ := h.alive k life hlife
      have hrow := hfollows.net net hin
      by_cases hfull : (a.hasNet || a.hasRate) = true ∧ life.registered = true
      · obtain ⟨identity, hidentity⟩ := Dict.mem_iff_exists_get?.mp (hrow.device.mpr hfull)
        obtain rfl := Option.some.inj (hkey.symm.trans (hrow.key.trans (if_pos hfull)))
        simp only [hrow.rate.trans (if_pos hfull), hidentity]
        split_ifs <;> exact ⟨rfl, rfl, rfl, rfl⟩
      · have hrate := hrow.rate.trans (if_neg hfull)
        have hkey' := hkey.symm.trans (hrow.key.trans (if_neg hfull))
        by_cases hnet : a.hasNet = true
        · rw [if_pos hnet] at hrate
          simp [hrate]
        · rw [if_neg hnet] at hkey'
          exact absurd hkey' (Option.some_ne_none key)
  constructor
  · rw [ResourceManager.rateEvent, ResourceManager.watchNet_ok]
    exact fun net hin _ => (hactivity net hin).1
  · intro raised
    rw [ResourceManager.rateEvent, ResourceManager.watchNet_fst]
    refine h.of_same h.spc h.failed (fun key => ⟨rfl, Iff.rfl, ?_⟩) ?_ fun _ _ _ a ha => ha
    · intro net' hnet'
      obtain ⟨net, hin, rfl⟩ := (mem_ite_map (b := true)).mp hnet'
      refine ⟨net, hin, ?_⟩
      rw [if_pos rfl, (hactivity net hin).2.1]
    · intro p net' hnet'
      obtain ⟨net, hin, rfl⟩ := (mem_ite_map (b := true)).mp hnet'
      refine ⟨net, hin, ?_⟩
      rw [if_pos rfl, (hactivity net hin).2.2.1, (hactivity net hin).2.2.2]
      exact ⟨rfl, rfl⟩

/-- **Exactly the events that raise no exception**, and what they keep. -/
theorem Agrees.outcome (h : w.Agrees) {e : ResourceEvent} (ha : w.allows e) :
    ((w.outcome e).2 = true ↔ w.Keeps e) ∧
      ((w.outcome e).2 = true → ∀ raised, Agrees ⟨(w.outcome e).1, w.livesAfter e, raised⟩) := by
  cases e with
  | setupApp appName => exact ⟨iff_of_true rfl trivial, fun _ raised => h.setupApp appName raised⟩
  | cleanupApp appName => exact ⟨iff_of_true (h.cleanupApp ha).1 trivial, fun _ => (h.cleanupApp ha).2⟩
  | addActor appName actorName memFiles usage => exact ⟨(h.addActor ha).1, fun _ => (h.addActor ha).2⟩
  | startActor appName actorName pid uid =>
    exact ⟨iff_of_true (h.startActor ha).1 trivial, fun _ => (h.startActor ha).2⟩
  | addClientDevice appName actorName =>
    exact ⟨iff_of_true (h.addClientDevice ha).1 trivial, fun _ => (h.addClientDevice ha).2⟩
  | stopActor appName actorName =>
    simp only [allows, decide_eq_true_eq, Dict.mem_iff_exists_get?] at ha
    obtain ⟨life, hlife⟩ := ha
    obtain ⟨app, actor, a, hname, hentry, hfollows⟩ := h.alive _ life hlife
    obtain ⟨rfl, rfl⟩ := qualName_inj hname
    simp only [ManagedActors.outcome, Keeps, hlife, Option.map_some, Option.some.injEq]
    exact ⟨h.stopActor_ok hentry hfollows, fun hok raised => h.stopActor hlife hentry hfollows hok raised⟩
  | quota uid => exact h.quota uid
  | rate pid uid sent => exact ⟨iff_of_true (h.rate pid uid sent).1 trivial, fun _ => (h.rate pid uid sent).2⟩

/-! ### Runs -/

theorem Agrees.start (cgroups : Cgroups) (netmon : Bool) : (start cgroups netmon).Agrees where
  spc := ⟨fun _ => List.nodup_nil, fun uid name => by simp [ManagedActors.start, ResourceManager.init]⟩
  failed := rfl
  alive key life hlife := absurd hlife.symm (Option.some_ne_none life)
  dead key _ := by
    refine ⟨Dict.not_mem_empty key, Dict.not_mem_empty key, fun net hnet => ?_⟩
    simp only [ManagedActors.start, ResourceManager.init] at hnet
    split_ifs at hnet
    · exact Option.some.inj hnet ▸ Dict.not_mem_empty key
    · exact absurd hnet (Option.not_mem_none net)
  idle pid _ net hnet := by
    simp only [ManagedActors.start, ResourceManager.init] at hnet
    split_ifs at hnet
    · exact Option.some.inj hnet ▸ ⟨Dict.not_mem_empty pid, Dict.not_mem_empty pid⟩
    · exact absurd hnet (Option.not_mem_none net)
  pids key key' life life' hlife := absurd hlife.symm (Option.some_ne_none life)

/-- **Exactly the runs without an exception**: then the monitors have what they should, all along. -/
theorem mirrors_iff (cgroups : Cgroups) (netmon : Bool) (events : List ResourceEvent) :
    Always step Mirrors (start cgroups netmon) events ↔ AllSteps step KeepsIfAllowed (start cgroups netmon) events := by
  refine always_iff_allSteps (I := fun w => w.raised = false → w.Agrees) (fun w e hinv hw hok => ?_)
    (fun w e hinv hw => ?_) (fun _ => Agrees.start cgroups netmon) ((Agrees.start cgroups netmon).mirrors rfl) events
  · by_cases ha : w.allows e
    · rw [step, if_pos ha] at hok ⊢
      refine ((hinv hw.ok).outcome ha).2 ?_ _
      simpa using (Bool.or_eq_false_iff.mp hok).2
    · rw [step, if_neg ha]
      exact hinv hw.ok
  · have hagrees := hinv hw.ok
    by_cases ha : w.allows e
    · obtain ⟨hiff, hkept⟩ := hagrees.outcome ha
      rw [KeepsIfAllowed, imp_iff_right ha, ← hiff, step, if_pos ha]
      constructor
      · intro hm
        simpa using (Bool.or_eq_false_iff.mp hm.ok).2
      · intro hok
        exact (hkept hok _).mirrors (by simp [hok, hw.ok])
    · rw [KeepsIfAllowed, step, if_neg ha]
      exact iff_of_true hw fun hallowed => absurd hallowed ha

/-- An actor with a space limit is stopped before it has registered; one with a network limit is, on a host that
monitors the network; and a user exceeds the quota before its actor has registered. -/
theorem unregistered :
    let app : AppName := ⟨['a'], by decide⟩
    ¬ Mirrors (run step (start ⟨true, true, true⟩ false)
        [.setupApp app, .addActor app ['x'] true (some ⟨none, false, some true, none⟩), .startActor app ['x'] 7 9,
          .stopActor app ['x']]) ∧
      ¬ Mirrors (run step (start ⟨true, true, false⟩ true)
        [.setupApp app, .addActor app ['x'] true (some ⟨none, false, none, some (some 5)⟩), .startActor app ['x'] 7 9,
          .stopActor app ['x']]) ∧
      ¬ Mirrors (run step (start ⟨true, true, true⟩ false)
        [.setupApp app, .addActor app ['x'] true (some ⟨none, false, some true, none⟩), .startActor app ['x'] 7 9,
          .quota 9]) := by
  refine ⟨fun h => absurd h.ok ?_, fun h => absurd h.ok ?_, fun h => absurd h.ok ?_⟩ <;> decide +kernel

end ManagedActors

end Riaps.Deployment
