import Mathlib.Data.List.Basic
import Riaps.Foundation.Runs
import Riaps.Deployment.AppDbase

/-!
# The peers of an application

The fault monitor keeps, for each application, the peers that have joined its
zyre group. It learns of them from the events of zyre, also before the
application is set up on this host, and its own commands come in between. The
state here is the monitor's, as the source has it, beside what zyre has told so
far: who has entered, who has joined what.

Nothing takes a peer that exits out of the groups. An application that is set up
gets an empty group if there is no entry, whoever has joined, and keeps the entry
if there is one, whatever is in it: a peer's message makes one for that peer
alone. Clearing an application up deletes its entry, so that a peer that leaves
later is not found where it is looked for, and this ends the thread. As long as
none of this happens the groups are right, and only then (`tracks_iff`).
-/

namespace Riaps.Deployment

open Riaps.Foundation

/-! ### Names and messages -/

/-- `riaps`, the group of all the hosts. -/
def riapsGroup : Text := ['r', 'i', 'a', 'p', 's']

/-- `groupName`: the group of an application. -/
def groupName (appName : AppName) : Text := riapsGroup ++ '.' :: appName.name

/-- `groupName.split('.')`: `none` unless there are two parts. -/
def splitGroup (group : Text) : Option (Text × AppName) :=
  match splitName group with
  | some (head, rest) => if h : '.' ∉ rest then some (head.name, ⟨rest, h⟩) else none
  | none => none

/-- The name of a group that the monitor can take apart, or does not look into. -/
def Named (group : Text) : Prop := group = riapsGroup ∨ (splitGroup group).isSome

/-- What a host says about its actor: `+`, `-` or `?`, and which one it is. -/
def actorNews (sign : Char) (appName : AppName) (actorName : Text) : Text := sign :: ' ' :: qualName appName actorName

/-- The two splits of a message: `none` unless the first gives two parts and the second finds a dot. -/
def splitArg (arg : Text) : Option (Text × AppName × Text) :=
  match arg.splitOn ' ' with
  | [cmd, pair] => (splitName pair).map fun named => (cmd, named)
  | _ => none

/-- The first field of what the deployment manager is told. -/
inductive Head where
  /-- `peer+`. -/
  | found
  /-- `peer-`. -/
  | lost
  /-- `?`. -/
  | unknown
  deriving DecidableEq

/-- `head`, by the first part of a message. -/
def headOf (cmd : Text) : Head := if cmd = ['+'] then .found else if cmd = ['-'] ∨ cmd = ['?'] then .lost else .unknown

/-! ### Names -/

theorem splitGroup_groupName (appName : AppName) : splitGroup (groupName appName) = some (riapsGroup, appName) := by
  have hsplit := splitName_qualName ⟨riapsGroup, by decide⟩ appName.name
  have hname : groupName appName = qualName ⟨riapsGroup, by decide⟩ appName.name := rfl
  rw [splitGroup, hname, hsplit]
  exact dif_pos appName.dot_name

theorem groupName_of_splitGroup {group : Text} {appName : AppName}
    (h : splitGroup group = some (riapsGroup, appName)) : group = groupName appName := by
  unfold splitGroup at h
  split at h
  · rename_i head rest hsplit
    split at h
    · obtain ⟨hhead, rfl⟩ := Prod.mk.inj (Option.some.inj h)
      rw [groupName, ← hhead]
      exact eq_of_splitName hsplit
    · exact absurd h (Option.some_ne_none _).symm
  · exact absurd h (Option.some_ne_none _).symm

theorem groupName_inj {appName appName' : AppName} (h : groupName appName = groupName appName') :
    appName = appName' := by
  have hsplit := splitGroup_groupName appName
  rw [h, splitGroup_groupName] at hsplit
  exact (Prod.mk.inj (Option.some.inj hsplit)).2.symm

theorem groupName_ne_riapsGroup (appName : AppName) : groupName appName ≠ riapsGroup := by
  intro h
  have hlen := congrArg List.length h
  simp [groupName] at hlen

/-- **What a host says about its actor is read back**: no name has a space in it. -/
theorem splitArg_actorNews {sign : Char} {appName : AppName} {actorName : Text} (hsign : sign ≠ ' ')
    (happ : ' ' ∉ appName.name) (hactor : ' ' ∉ actorName) :
    splitArg (actorNews sign appName actorName) = some ([sign], appName, actorName) := by
  have hpair : ' ' ∉ qualName appName actorName := by
    rw [qualName, List.mem_append, List.mem_cons]
    rintro (h | h | h)
    exacts [happ h, absurd h (by decide), hactor h]
  have hsplit : (actorNews sign appName actorName).splitOn ' ' = [[sign], qualName appName actorName] := by
    have hmem : ' ' ∉ [sign] := fun h => hsign (List.mem_singleton.mp h).symm
    have hcons := List.splitOn_append_cons_self_of_not_mem hmem (qualName appName actorName)
    rw [List.splitOn_eq_singleton hpair] at hcons
    exact hcons
  rw [splitArg, hsplit]
  simp [splitName_qualName]

/-! ### The monitor -/

/-- The state of an `FMMonitor`. A set is the list of what is in it. -/
structure FMMonitor (Peer Addr : Type) where
  /-- The address of each valid peer. -/
  peers : Dict Peer Addr
  /-- The peers in the group of each application. -/
  groups : Dict AppName (List Peer)
  /-- The actors of each application. -/
  actors : Dict AppName (List Text)
  /-- What was sent to the deployment manager. -/
  told : List (Head × AppName × Text × Peer)
  /-- What was shouted, and to which group. -/
  shouts : List (Text × Text)
  /-- What was whispered, and to whom. -/
  whispers : List (Peer × Text)
  /-- An exception has ended the thread. -/
  raised : Bool

variable {Peer Addr : Type} [DecidableEq Peer]

namespace FMMonitor

/-- The thread ends. -/
def fail (m : FMMonitor Peer Addr) : FMMonitor Peer Addr := { m with raised := true }

/-- Tell each actor of an application about a peer. -/
def tell (head : Head) (appName : AppName) (peer : Peer) (m : FMMonitor Peer Addr) : FMMonitor Peer Addr :=
  { m with told := m.told ++ ((m.actors.get? appName).getD []).map fun actorName => (head, appName, actorName, peer) }

/-- Tell a peer about each actor of an application. -/
def whisper (appName : AppName) (peer : Peer) (m : FMMonitor Peer Addr) : FMMonitor Peer Addr :=
  { m with
    whispers := m.whispers ++ ((m.actors.get? appName).getD []).map fun actorName =>
      (peer, actorNews '+' appName actorName) }

/-! #### Commands -/

/-- `setupApp`. -/
def setupApp (appName : AppName) (m : FMMonitor Peer Addr) : FMMonitor Peer Addr :=
  if appName ∈ m.groups then m
  else { m with groups := m.groups.set appName [], actors := m.actors.set appName [] }

/-- `cleanupApp`. -/
def cleanupApp (appName : AppName) (m : FMMonitor Peer Addr) : FMMonitor Peer Addr :=
  { m with groups := m.groups.del appName }

/-- `addActor`. -/
def addActor (appName : AppName) (actorName : Text) (m : FMMonitor Peer Addr) : FMMonitor Peer Addr :=
  match m.groups.get? appName, m.actors.get? appName with
  | some group, some actors =>
    { m with
      actors := m.actors.set appName (actors.insert actorName)
      shouts := m.shouts ++ [(groupName appName, actorNews '+' appName actorName)]
      told := m.told ++ group.map fun peer => (.found, appName, actorName, peer) }
  | _, _ => m.fail

/-- What `delActor` and `dieActor` do, with the sign they shout. -/
def loseActor (sign : Char) (appName : AppName) (actorName : Text) (m : FMMonitor Peer Addr) : FMMonitor Peer Addr :=
  match m.groups.get? appName, m.actors.get? appName with
  | some _, some actors =>
    if actorName ∈ actors then
      { m with
        actors := m.actors.set appName (actors.filter (· ≠ actorName))
        shouts := m.shouts ++ [(groupName appName, actorNews sign appName actorName)] }
    else m.fail
  | _, _ => m.fail

/-- `delActor`. -/
def delActor (appName : AppName) (actorName : Text) (m : FMMonitor Peer Addr) : FMMonitor Peer Addr :=
  m.loseActor '-' appName actorName

/-- `dieActor`. -/
def dieActor (appName : AppName) (actorName : Text) (m : FMMonitor Peer Addr) : FMMonitor Peer Addr :=
  m.loseActor '?' appName actorName

/-! #### Events -/

/-- `ENTER`; whether the address can be parsed and the header has the mark. -/
def onEnter (peer : Peer) (addr : Addr) (valid : Bool) (m : FMMonitor Peer Addr) : FMMonitor Peer Addr :=
  if valid then { m with peers := m.peers.set peer addr } else m

/-- What is done about an application when its group is named. -/
def inGroup (f : AppName → FMMonitor Peer Addr → FMMonitor Peer Addr) (group : Text) (m : FMMonitor Peer Addr) :
    FMMonitor Peer Addr :=
  if group = riapsGroup then m
  else
    match splitGroup group with
    | some (head, appName) => if head = riapsGroup then f appName m else m
    | none => m.fail

/-- `JOIN` of the group of an application. -/
def joinApp (peer : Peer) (appName : AppName) (m : FMMonitor Peer Addr) : FMMonitor Peer Addr :=
  match m.groups.get? appName with
  | none =>
    let actors := if appName ∈ m.actors then m.actors else m.actors.set appName []
    ({ m with groups := m.groups.set appName [peer], actors := actors }.whisper appName peer).tell .found appName peer
  | some group =>
    ({ m with groups := m.groups.set appName (group.insert peer) }.whisper appName peer).tell .found appName peer

/-- `LEAVE` of the group of an application. -/
def leaveApp (peer : Peer) (appName : AppName) (m : FMMonitor Peer Addr) : FMMonitor Peer Addr :=
  match m.groups.get? appName with
  | none => m.tell .lost appName peer
  | some group =>
    -- `set.remove` raises a `KeyError`
    if peer ∈ group then
      { m with groups := m.groups.set appName (group.filter (· ≠ peer)) }.tell .lost appName peer
    else m.fail

/-- `EXIT`. -/
def onExit (peer : Peer) (m : FMMonitor Peer Addr) : FMMonitor Peer Addr :=
  { m with
    told := m.told ++ (m.groups.items.filter fun i => peer ∈ i.2).flatMap fun i =>
      ((m.actors.get? i.1).getD []).map fun actorName => (.lost, i.1, actorName, peer)
    peers := m.peers.del peer }

/-- `SHOUT` and `WHISPER`. -/
def onShout (peer : Peer) (arg : Text) (m : FMMonitor Peer Addr) : FMMonitor Peer Addr :=
  match splitArg arg with
  | some (cmd, appName, _) =>
    let groups := if appName ∈ m.groups then m.groups else m.groups.set appName [peer]
    { m with groups := groups }.tell (headOf cmd) appName peer
  | none => m.fail

end FMMonitor

/-- What the loop of the monitor receives. -/
inductive GroupEvent (Peer Addr : Type) where
  | setupApp (appName : AppName)
  | cleanupApp (appName : AppName)
  | addActor (appName : AppName) (actorName : Text)
  | delActor (appName : AppName) (actorName : Text)
  | dieActor (appName : AppName) (actorName : Text)
  | enter (peer : Peer) (addr : Addr) (valid : Bool)
  | join (peer : Peer) (group : Text)
  | leave (peer : Peer) (group : Text)
  | exit (peer : Peer)
  | shout (peer : Peer) (arg : Text)
  | whisper (peer : Peer) (arg : Text)

/-- One round of the loop; the events of others than the valid peers are skipped. -/
def FMMonitor.handle (m : FMMonitor Peer Addr) : GroupEvent Peer Addr → FMMonitor Peer Addr
  | .setupApp appName => m.setupApp appName
  | .cleanupApp appName => m.cleanupApp appName
  | .addActor appName actorName => m.addActor appName actorName
  | .delActor appName actorName => m.delActor appName actorName
  | .dieActor appName actorName => m.dieActor appName actorName
  | .enter peer addr valid => m.onEnter peer addr valid
  | .join peer group => if peer ∈ m.peers then m.inGroup (FMMonitor.joinApp peer) group else m
  | .leave peer group => if peer ∈ m.peers then m.inGroup (FMMonitor.leaveApp peer) group else m
  | .exit peer => if peer ∈ m.peers then m.onExit peer else m
  | .shout peer arg | .whisper peer arg => if peer ∈ m.peers then m.onShout peer arg else m

/-! ### What zyre has told -/

/-- The monitor, and what has happened around it. -/
structure Neighbours (Peer Addr : Type) where
  mon : FMMonitor Peer Addr
  /-- Who has entered and not exited since, and whether it is valid. -/
  entered : Dict Peer Bool
  /-- Who has joined which group, and not left it since. -/
  joined : List (Peer × Text)
  /-- The applications that are set up. -/
  setUp : List AppName

namespace Neighbours

/-- Nobody is there. -/
def start : Neighbours Peer Addr := ⟨⟨.empty, .empty, .empty, [], [], [], false⟩, .empty, [], []⟩

/-- What zyre allows: a peer enters, joins groups and leaves those it has joined, speaks, exits. -/
def allows (n : Neighbours Peer Addr) : GroupEvent Peer Addr → Bool
  | .enter peer _ _ => peer ∉ n.entered
  | .join peer _ | .exit peer | .shout peer _ | .whisper peer _ => peer ∈ n.entered
  | .leave peer group => (peer, group) ∈ n.joined
  | _ => true

/-- What has happened after an event. -/
def happen (n : Neighbours Peer Addr) : GroupEvent Peer Addr → Neighbours Peer Addr
  | .setupApp appName => { n with setUp := n.setUp.insert appName }
  | .cleanupApp appName => { n with setUp := n.setUp.filter (· ≠ appName) }
  | .enter peer _ valid => { n with entered := n.entered.set peer valid }
  | .join peer group => { n with joined := n.joined.insert (peer, group) }
  | .leave peer group => { n with joined := n.joined.filter (· ≠ (peer, group)) }
  | .exit peer => { n with entered := n.entered.del peer, joined := n.joined.filter (·.1 ≠ peer) }
  | _ => n

/-- One event, if zyre allows it. The monitor sees it while its thread runs. -/
def step (n : Neighbours Peer Addr) (e : GroupEvent Peer Addr) : Neighbours Peer Addr :=
  if n.allows e then { n.happen e with mon := if n.mon.raised then n.mon else n.mon.handle e } else n

/-- A valid peer that has joined the group of an application. -/
def Member (n : Neighbours Peer Addr) (appName : AppName) (peer : Peer) : Prop :=
  n.entered.get? peer = some true ∧ (peer, groupName appName) ∈ n.joined

/-- The entry of an application has its members, and there are none if there is no entry. -/
def Exact (n : Neighbours Peer Addr) (appName : AppName) : Prop :=
  ∀ peer, peer ∈ (n.mon.groups.get? appName).getD [] ↔ n.Member appName peer

/-- No exception was raised, and the group of every application that is set up is right. -/
def Tracks (n : Neighbours Peer Addr) : Prop :=
  n.mon.raised = false ∧ ∀ appName ∈ n.setUp, appName ∈ n.mon.groups ∧ n.Exact appName

/-- An event that keeps the groups right. -/
def Keeps (n : Neighbours Peer Addr) : GroupEvent Peer Addr → Prop
  | .setupApp appName => n.Exact appName
  | .cleanupApp _ | .enter .. => True
  | .addActor appName _ => appName ∈ n.mon.groups ∧ appName ∈ n.mon.actors
  | .delActor appName actorName | .dieActor appName actorName =>
    appName ∈ n.mon.groups ∧ actorName ∈ (n.mon.actors.get? appName).getD []
  | .join peer group => peer ∈ n.mon.peers → Named group
  | .leave peer group =>
    peer ∈ n.mon.peers →
      Named group ∧ ∀ appName ∈ n.mon.groups, group = groupName appName → peer ∈ (n.mon.groups.get? appName).getD []
  | .exit peer => peer ∈ n.mon.peers → ∀ appName ∈ n.setUp, peer ∉ (n.mon.groups.get? appName).getD []
  | .shout peer arg | .whisper peer arg => peer ∈ n.mon.peers → (splitArg arg).isSome

/-- Events that zyre does not allow do not happen. -/
def KeepsIfAllowed (n : Neighbours Peer Addr) (e : GroupEvent Peer Addr) : Prop := n.allows e → n.Keeps e

/-! ### A step -/

variable {n n' : Neighbours Peer Addr}

/-- What zyre has told agrees with what the monitor has of the peers. -/
structure Known (n : Neighbours Peer Addr) : Prop where
  peers : ∀ peer, peer ∈ n.mon.peers ↔ n.entered.get? peer = some true
  joined : ∀ i ∈ n.joined, i.1 ∈ n.entered

theorem not_tracks (h : n.mon.raised = true) : ¬ n.Tracks := fun ht => absurd (h.symm.trans ht.1) (by decide)

/-- A round of the loop that raises an exception unless `C`, and leaves the groups of what is set up. -/
theorem Tracks.of_groups (h : n.Tracks) {m : FMMonitor Peer Addr} {C : Prop} (hfail : ¬ C → m.raised = true)
    (hok : C → m.raised = false ∧ ∀ app ∈ n.setUp, m.groups.get? app = n.mon.groups.get? app) :
    Tracks { n with mon := m } ↔ C := by
  by_cases hC : C
  · refine iff_of_true ⟨(hok hC).1, fun app happ => ?_⟩ hC
    have hget : m.groups.get? app = n.mon.groups.get? app := (hok hC).2 app happ
    obtain ⟨hmem, hexact⟩ := h.2 app happ
    constructor
    · rw [Dict.mem_iff_exists_get?] at hmem ⊢
      rwa [hget]
    · intro peer
      show peer ∈ (m.groups.get? app).getD [] ↔ _
      rw [hget]
      exact hexact peer
  · exact iff_of_false (not_tracks (hfail hC)) hC

/-- A step of the running thread. -/
theorem Tracks.step_eq (h : n.Tracks) {e : GroupEvent Peer Addr} (ha : n.allows e) :
    n.step e = { n.happen e with mon := n.mon.handle e } := by
  rw [step, if_pos ha, if_neg (by simp [h.1])]

theorem Tracks.setupApp (h : n.Tracks) (appName : AppName) :
    (n.step (.setupApp appName)).Tracks ↔ n.Exact appName := by
  have hget : ∀ app, ((n.mon.setupApp appName).groups.get? app).getD [] = (n.mon.groups.get? app).getD [] := by
    intro app
    rw [FMMonitor.setupApp]
    split_ifs with hmem
    · rfl
    · show ((n.mon.groups.set appName []).get? app).getD [] = _
      rw [Dict.get?_set]
      split_ifs with happ
      · rw [happ, Dict.get?_eq_none_iff.mpr hmem]
        rfl
      · rfl
  have hmem : ∀ app, app ∈ (n.mon.setupApp appName).groups ↔ app = appName ∨ app ∈ n.mon.groups := by
    intro app
    rw [FMMonitor.setupApp]
    split_ifs with hmem
    · exact ⟨.inr, fun happ => happ.elim (fun he => he ▸ hmem) id⟩
    · exact Dict.mem_set
  have hraised : (n.mon.setupApp appName).raised = false := by
    rw [FMMonitor.setupApp]
    split_ifs <;> exact h.1
  rw [h.step_eq rfl]
  have hexact : ∀ app, Exact { n with setUp := n.setUp.insert appName, mon := n.mon.setupApp appName } app ↔
      n.Exact app := by
    intro app
    refine forall_congr' fun peer => ?_
    rw [hget app]
    exact Iff.rfl
  constructor
  · intro ht
    exact (hexact appName).mp (ht.2 appName List.mem_insert_self).2
  · intro hnew
    refine ⟨hraised, fun app happ => ⟨(hmem app).mpr ?_, (hexact app).mpr ?_⟩⟩
    · exact (List.mem_insert_iff.mp happ).imp_right fun hold => (h.2 app hold).1
    · rcases List.mem_insert_iff.mp happ with rfl | hold
      exacts [hnew, (h.2 app hold).2]

theorem Tracks.cleanupApp (h : n.Tracks) (appName : AppName) : (n.step (.cleanupApp appName)).Tracks := by
  rw [h.step_eq rfl]
  refine ⟨h.1, fun app happ => ?_⟩
  obtain ⟨hold, hne⟩ := List.mem_filter.mp happ
  have hne : app ≠ appName := by simpa using hne
  refine ⟨Dict.mem_del.mpr ⟨(h.2 app hold).1, hne⟩, fun peer => ?_⟩
  show peer ∈ ((n.mon.groups.del appName).get? app).getD [] ↔ _
  rw [Dict.get?_del, if_neg hne]
  exact (h.2 app hold).2 peer

theorem Tracks.addActor (h : n.Tracks) (appName : AppName) (actorName : Text) :
    (n.step (.addActor appName actorName)).Tracks ↔ appName ∈ n.mon.groups ∧ appName ∈ n.mon.actors := by
  rw [h.step_eq rfl]
  refine h.of_groups (fun hno => ?_) (fun hok => ?_)
  · rw [Dict.mem_iff_exists_get?, Dict.mem_iff_exists_get?] at hno
    cases hgroup : n.mon.groups.get? appName <;> cases hactors : n.mon.actors.get? appName
    case some.some => exact absurd ⟨⟨_, hgroup⟩, _, hactors⟩ hno
    all_goals simp only [FMMonitor.handle, FMMonitor.addActor, hgroup, hactors, FMMonitor.fail]
  · obtain ⟨group, hgroup⟩ := Dict.mem_iff_exists_get?.mp hok.1
    obtain ⟨actors, hactors⟩ := Dict.mem_iff_exists_get?.mp hok.2
    simp only [FMMonitor.handle, FMMonitor.addActor, hgroup, hactors]
    exact ⟨h.1, fun _ _ => trivial⟩

/-- `delActor` and `dieActor`. -/
theorem Tracks.loseActor (h : n.Tracks) (sign : Char) (appName : AppName) (actorName : Text) :
    Tracks { n with mon := n.mon.loseActor sign appName actorName } ↔
      appName ∈ n.mon.groups ∧ actorName ∈ (n.mon.actors.get? appName).getD [] := by
  rw [Dict.mem_iff_exists_get?]
  refine h.of_groups (fun hno => ?_) (fun hok => ?_)
  · cases hgroup : n.mon.groups.get? appName with
    | none => simp only [FMMonitor.loseActor, hgroup, FMMonitor.fail]
    | some group =>
      cases hactors : n.mon.actors.get? appName with
      | none => simp only [FMMonitor.loseActor, hgroup, hactors, FMMonitor.fail]
      | some actors =>
        have hactor : actorName ∉ actors := fun hmem => hno ⟨⟨group, hgroup⟩, by rwa [hactors]⟩
        simp only [FMMonitor.loseActor, hgroup, hactors, if_neg hactor, FMMonitor.fail]
  · obtain ⟨⟨group, hgroup⟩, hactor⟩ := hok
    cases hactors : n.mon.actors.get? appName with
    | none => simp [hactors] at hactor
    | some actors =>
      rw [hactors, Option.getD_some] at hactor
      simp only [FMMonitor.loseActor, hgroup, hactors, if_pos hactor]
      exact ⟨h.1, fun _ _ => trivial⟩

theorem Tracks.enter (h : n.Tracks) (hk : n.Known) {peer : Peer} {addr : Addr} {valid : Bool}
    (ha : n.allows (.enter peer addr valid)) : (n.step (.enter peer addr valid)).Tracks := by
  have hnew : peer ∉ n.entered := by simpa [allows] using ha
  have hmon : (n.mon.onEnter peer addr valid).raised = n.mon.raised ∧
      (n.mon.onEnter peer addr valid).groups = n.mon.groups := by
    cases valid <;> exact ⟨rfl, rfl⟩
  rw [h.step_eq ha]
  refine ⟨hmon.1.trans h.1, fun app happ => ⟨hmon.2.symm ▸ (h.2 app happ).1, fun q => ?_⟩⟩
  show q ∈ ((n.mon.onEnter peer addr valid).groups.get? app).getD [] ↔
    (n.entered.set peer valid).get? q = some true ∧ (q, groupName app) ∈ n.joined
  rw [hmon.2, (h.2 app happ).2 q, Member]
  refine and_congr_left fun hjoined => ?_
  -- who has joined had entered before
  have hne : q ≠ peer := fun heq => hnew (heq ▸ hk.joined _ hjoined)
  rw [Dict.get?_set_of_ne _ _ hne]

omit [DecidableEq Peer] in
/-- What a group name leads to: an exception, the group of an application, or nothing. -/
theorem inGroup_cases (f : AppName → FMMonitor Peer Addr → FMMonitor Peer Addr) (group : Text)
    (m : FMMonitor Peer Addr) :
    ¬ Named group ∧ m.inGroup f group = m.fail ∨
      (∃ appName, group = groupName appName ∧ m.inGroup f group = f appName m) ∨
      Named group ∧ (∀ appName, group ≠ groupName appName) ∧ m.inGroup f group = m := by
  by_cases hriaps : group = riapsGroup
  · refine .inr (.inr ⟨.inl hriaps, fun appName he => groupName_ne_riapsGroup appName (he ▸ hriaps), ?_⟩)
    rw [FMMonitor.inGroup, if_pos hriaps]
  · cases hsplit : splitGroup group with
    | none =>
      refine .inl ⟨?_, ?_⟩
      · rintro (h | h)
        · exact hriaps h
        · simp [hsplit] at h
      · simp only [FMMonitor.inGroup, if_neg hriaps, hsplit]
    | some parts =>
      obtain ⟨head, appName⟩ := parts
      by_cases hhead : head = riapsGroup
      · refine .inr (.inl ⟨appName, groupName_of_splitGroup (hhead ▸ hsplit), ?_⟩)
        simp only [FMMonitor.inGroup, if_neg hriaps, hsplit, if_pos hhead]
      · refine .inr (.inr ⟨.inr (by simp [hsplit]), fun app he => hhead ?_, ?_⟩)
        · rw [he, splitGroup_groupName] at hsplit
          exact (Prod.mk.inj (Option.some.inj hsplit)).1.symm
        · simp only [FMMonitor.inGroup, if_neg hriaps, hsplit, if_neg hhead]

theorem mem_joinApp (m : FMMonitor Peer Addr) (peer q : Peer) (appName app : AppName) :
    q ∈ ((m.joinApp peer appName).groups.get? app).getD [] ↔
      q ∈ (m.groups.get? app).getD [] ∨ app = appName ∧ q = peer := by
  have hset : ∀ (group : List Peer), (∀ q, q ∈ group ↔ q ∈ (m.groups.get? appName).getD [] ∨ q = peer) →
      (q ∈ ((m.groups.set appName group).get? app).getD [] ↔
        q ∈ (m.groups.get? app).getD [] ∨ app = appName ∧ q = peer) := by
    intro group hgroup
    rw [Dict.get?_set]
    by_cases happ : app = appName
    · rw [if_pos happ, happ, Option.getD_some, hgroup q]
      simp
    · simp [happ]
  cases hget : m.groups.get? appName with
  | none =>
    simp only [FMMonitor.joinApp, hget]
    exact hset [peer] (by simp [hget])
  | some group =>
    simp only [FMMonitor.joinApp, hget]
    exact hset (group.insert peer) (by simp [hget, or_comm])

theorem mem_groups_joinApp {m : FMMonitor Peer Addr} (peer : Peer) (appName : AppName) {app : AppName}
    (h : app ∈ m.groups) : app ∈ (m.joinApp peer appName).groups := by
  cases hget : m.groups.get? appName with
  | none =>
    simp only [FMMonitor.joinApp, hget]
    exact Dict.mem_set.mpr (.inr h)
  | some group =>
    simp only [FMMonitor.joinApp, hget]
    exact Dict.mem_set.mpr (.inr h)

theorem joinApp_raised (m : FMMonitor Peer Addr) (peer : Peer) (appName : AppName) :
    (m.joinApp peer appName).raised = m.raised := by
  cases hget : m.groups.get? appName <;> simp only [FMMonitor.joinApp, hget] <;> rfl

theorem Tracks.join (h : n.Tracks) (hk : n.Known) {peer : Peer} {group : Text} (ha : n.allows (.join peer group)) :
    (n.step (.join peer group)).Tracks ↔ (peer ∈ n.mon.peers → Named group) := by
  have hmember : ∀ app q, Member { n with joined := n.joined.insert (peer, group) } app q ↔
      n.Member app q ∨ q = peer ∧ groupName app = group ∧ peer ∈ n.mon.peers := by
    intro app q
    simp only [Member, List.mem_insert_iff, Prod.mk.injEq, hk.peers]
    constructor
    · rintro ⟨hvalid, ⟨rfl, hgroup⟩ | hold⟩
      exacts [.inr ⟨rfl, hgroup, hvalid⟩, .inl ⟨hvalid, hold⟩]
    · rintro (⟨hvalid, hold⟩ | ⟨rfl, hgroup, hvalid⟩)
      exacts [⟨hvalid, .inr hold⟩, ⟨hvalid, .inl ⟨rfl, hgroup⟩⟩]
  rw [h.step_eq ha]
  by_cases hp : peer ∈ n.mon.peers
  · rw [show n.mon.handle (.join peer group) = n.mon.inGroup (FMMonitor.joinApp peer) group from if_pos hp]
    rcases inGroup_cases (FMMonitor.joinApp peer) group n.mon with ⟨hnot, heq⟩ | ⟨appName, rfl, heq⟩ |
      ⟨hnamed, hother, heq⟩
    all_goals rw [heq]
    · exact iff_of_false (not_tracks rfl) fun hnamed => hnot (hnamed hp)
    · refine iff_of_true ⟨(joinApp_raised ..).trans h.1, fun app happ => ?_⟩
        fun _ => .inr (by simp [splitGroup_groupName])
      refine ⟨mem_groups_joinApp peer appName (h.2 app happ).1, fun q => ?_⟩
      refine (mem_joinApp n.mon peer q appName app).trans
        ((or_congr ((h.2 app happ).2 q) ?_).trans (hmember app q).symm)
      constructor
      · rintro ⟨rfl, rfl⟩
        exact ⟨rfl, rfl, hp⟩
      · rintro ⟨rfl, hname, -⟩
        exact ⟨groupName_inj hname, rfl⟩
    · refine iff_of_true ⟨h.1, fun app happ => ⟨(h.2 app happ).1, fun q => ?_⟩⟩ fun _ => hnamed
      refine ((h.2 app happ).2 q).trans (Iff.trans ?_ (hmember app q).symm)
      exact ⟨.inl, fun hor => hor.elim id fun hnew => absurd hnew.2.1.symm (hother app)⟩
  · rw [show n.mon.handle (.join peer group) = n.mon from if_neg hp]
    refine iff_of_true ⟨h.1, fun app happ => ⟨(h.2 app happ).1, fun q => ?_⟩⟩ fun hmem => absurd hmem hp
    refine ((h.2 app happ).2 q).trans (Iff.trans ?_ (hmember app q).symm)
    exact ⟨.inl, fun hor => hor.elim id fun hnew => absurd hnew.2.2 hp⟩

theorem Tracks.leave (h : n.Tracks) (hk : n.Known) {peer : Peer} {group : Text} (ha : n.allows (.leave peer group)) :
    (n.step (.leave peer group)).Tracks ↔ n.Keeps (.leave peer group) := by
  have hmember : ∀ app q, Member { n with joined := n.joined.filter (· ≠ (peer, group)) } app q ↔
      n.Member app q ∧ ¬ (q = peer ∧ groupName app = group) := by
    intro app q
    simp only [Member, List.mem_filter, decide_eq_true_eq, ne_eq, Prod.mk.injEq, and_assoc]
  rw [h.step_eq ha]
  by_cases hp : peer ∈ n.mon.peers
  · rw [show n.mon.handle (.leave peer group) = n.mon.inGroup (FMMonitor.leaveApp peer) group from if_pos hp]
    rcases inGroup_cases (FMMonitor.leaveApp peer) group n.mon with ⟨hnot, heq⟩ | ⟨appName, rfl, heq⟩ |
      ⟨hnamed, hother, heq⟩
    all_goals rw [heq]
    · exact iff_of_false (not_tracks rfl) fun hkeeps => hnot (hkeeps hp).1
    · have hnamed : Named (groupName appName) := .inr (by simp [splitGroup_groupName])
      cases hget : n.mon.groups.get? appName with
      | none =>
        have hno : appName ∉ n.mon.groups := Dict.get?_eq_none_iff.mp hget
        simp only [FMMonitor.leaveApp, hget]
        refine iff_of_true ⟨h.1, fun app happ => ⟨(h.2 app happ).1, fun q => ?_⟩⟩ fun _ =>
          ⟨hnamed, fun app happ he => absurd (groupName_inj he ▸ happ) hno⟩
        refine ((h.2 app happ).2 q).trans (Iff.trans ?_ (hmember app q).symm)
        refine ⟨fun hold => ⟨hold, fun hleft => hno ?_⟩, And.left⟩
        exact groupName_inj hleft.2 ▸ (h.2 app happ).1
      | some group =>
        by_cases hin : peer ∈ group
        · simp only [FMMonitor.leaveApp, hget, if_pos hin]
          refine iff_of_true ⟨h.1, fun app happ => ⟨Dict.mem_set.mpr (.inr (h.2 app happ).1), fun q => ?_⟩⟩ fun _ =>
            ⟨hnamed, fun app _ he => by rwa [← groupName_inj he, hget]⟩
          refine Iff.trans ?_ (hmember app q).symm
          show q ∈ ((n.mon.groups.set appName (group.filter (· ≠ peer))).get? app).getD [] ↔ _
          rw [← (h.2 app happ).2 q, Dict.get?_set]
          by_cases heq : app = appName
          · rw [if_pos heq, heq, hget]
            simp
          · rw [if_neg heq]
            exact (and_iff_left fun hleft => heq (groupName_inj hleft.2)).symm
        · simp only [FMMonitor.leaveApp, hget, if_neg hin]
          refine iff_of_false (not_tracks rfl) fun hkeeps => hin ?_
          have hold := (hkeeps hp).2 appName (Dict.mem_of_get? hget) rfl
          rwa [hget] at hold
    · refine iff_of_true ⟨h.1, fun app happ => ⟨(h.2 app happ).1, fun q => ?_⟩⟩ fun _ =>
        ⟨hnamed, fun app _ he => absurd he (hother app)⟩
      refine ((h.2 app happ).2 q).trans (Iff.trans ?_ (hmember app q).symm)
      exact ⟨fun hold => ⟨hold, fun hleft => hother app hleft.2.symm⟩, And.left⟩
  · rw [show n.mon.handle (.leave peer group) = n.mon from if_neg hp]
    refine iff_of_true ⟨h.1, fun app happ => ⟨(h.2 app happ).1, fun q => ?_⟩⟩ fun hmem => absurd hmem hp
    refine ((h.2 app happ).2 q).trans (Iff.trans ?_ (hmember app q).symm)
    refine ⟨fun hold => ⟨hold, fun hleft => hp ?_⟩, And.left⟩
    rw [hk.peers, ← hleft.1]
    exact hold.1

/-- Who exits stays in the groups. -/
theorem Tracks.exit (h : n.Tracks) (hk : n.Known) {peer : Peer} (ha : n.allows (.exit peer)) :
    (n.step (.exit peer)).Tracks ↔ n.Keeps (.exit peer) := by
  have hmember : ∀ app q,
      Member { n with entered := n.entered.del peer, joined := n.joined.filter (·.1 ≠ peer) } app q ↔
        n.Member app q ∧ q ≠ peer := by
    intro app q
    simp only [Member, List.mem_filter, decide_eq_true_eq, ne_eq, Dict.get?_del]
    by_cases hq : q = peer <;> simp [hq]
  have hmon : (n.mon.handle (.exit peer)).raised = n.mon.raised ∧
      (n.mon.handle (.exit peer)).groups = n.mon.groups := by
    by_cases hp : peer ∈ n.mon.peers
    · rw [show n.mon.handle (.exit peer) = n.mon.onExit peer from if_pos hp]
      exact ⟨rfl, rfl⟩
    · rw [show n.mon.handle (.exit peer) = n.mon from if_neg hp]
      exact ⟨rfl, rfl⟩
  rw [h.step_eq ha]
  constructor
  · intro ht _ app happ hmem
    have hnew : n.Member app peer ∧ peer ≠ peer := (hmember app peer).mp (((ht.2 app happ).2 peer).mp (by
      show peer ∈ ((n.mon.handle (.exit peer)).groups.get? app).getD []
      rwa [hmon.2]))
    exact hnew.2 rfl
  · intro hkeeps
    refine ⟨hmon.1.trans h.1, fun app happ => ⟨hmon.2.symm ▸ (h.2 app happ).1, fun q => ?_⟩⟩
    refine Iff.trans ?_ (hmember app q).symm
    show q ∈ ((n.mon.handle (.exit peer)).groups.get? app).getD [] ↔ _
    rw [hmon.2, (h.2 app happ).2 q]
    refine ⟨fun hold => ⟨hold, ?_⟩, And.left⟩
    rintro rfl
    exact hkeeps ((hk.peers q).mpr hold.1) app happ (((h.2 app happ).2 q).mpr hold)

/-- A message makes an entry only where no application is set up. -/
theorem Tracks.onShout (h : n.Tracks) (peer : Peer) (arg : Text) :
    Tracks { n with mon := if peer ∈ n.mon.peers then n.mon.onShout peer arg else n.mon } ↔
      (peer ∈ n.mon.peers → (splitArg arg).isSome) := by
  by_cases hp : peer ∈ n.mon.peers
  · rw [if_pos hp, imp_iff_right hp]
    cases hsplit : splitArg arg with
    | none =>
      simp only [FMMonitor.onShout, hsplit]
      exact iff_of_false (not_tracks rfl) (by simp)
    | some parts =>
      obtain ⟨cmd, appName, actorName⟩ := parts
      simp only [FMMonitor.onShout, hsplit]
      refine h.of_groups (fun hno => absurd rfl hno) fun _ => ⟨h.1, fun app happ => ?_⟩
      show (if appName ∈ n.mon.groups then n.mon.groups else n.mon.groups.set appName [peer]).get? app = _
      split_ifs with hmem
      · rfl
      · exact Dict.get?_set_of_ne _ _ fun heq => hmem (heq ▸ (h.2 app happ).1)
  · rw [if_neg hp]
    exact iff_of_true h fun hmem => absurd hmem hp

/-- **Exactly the events that keep the groups right.** -/
theorem Tracks.step (h : n.Tracks) (hk : n.Known) (e : GroupEvent Peer Addr) :
    (n.step e).Tracks ↔ n.KeepsIfAllowed e := by
  by_cases ha : n.allows e
  · rw [KeepsIfAllowed, imp_iff_right ha]
    cases e with
    | setupApp appName => exact h.setupApp appName
    | cleanupApp appName => exact iff_of_true (h.cleanupApp appName) trivial
    | addActor appName actorName => exact h.addActor appName actorName
    | delActor appName actorName =>
      rw [h.step_eq ha]
      exact h.loseActor '-' appName actorName
    | dieActor appName actorName =>
      rw [h.step_eq ha]
      exact h.loseActor '?' appName actorName
    | enter peer addr valid => exact iff_of_true (h.enter hk ha) trivial
    | join peer group => exact h.join hk ha
    | leave peer group => exact h.leave hk ha
    | exit peer => exact h.exit hk ha
    | shout peer arg | whisper peer arg =>
      rw [h.step_eq ha]
      exact h.onShout peer arg
  · rw [Neighbours.step, if_neg ha]
    exact iff_of_true h fun hallowed => absurd hallowed ha

/-! ### Runs -/

omit [DecidableEq Peer] in
theorem inGroup_peers {f : AppName → FMMonitor Peer Addr → FMMonitor Peer Addr} {m : FMMonitor Peer Addr}
    (hf : ∀ appName, (f appName m).peers = m.peers) (group : Text) : (m.inGroup f group).peers = m.peers := by
  rcases inGroup_cases f group m with ⟨-, heq⟩ | ⟨appName, -, heq⟩ | ⟨-, -, heq⟩ <;> rw [heq]
  · rfl
  · exact hf appName

omit [DecidableEq Peer] in
theorem loseActor_peers (m : FMMonitor Peer Addr) (sign : Char) (appName : AppName) (actorName : Text) :
    (m.loseActor sign appName actorName).peers = m.peers := by
  rw [FMMonitor.loseActor]
  split
  · split_ifs <;> rfl
  · rfl

theorem joinApp_peers (m : FMMonitor Peer Addr) (peer : Peer) (appName : AppName) :
    (m.joinApp peer appName).peers = m.peers := by
  rw [FMMonitor.joinApp]
  split <;> rfl

theorem leaveApp_peers (m : FMMonitor Peer Addr) (peer : Peer) (appName : AppName) :
    (m.leaveApp peer appName).peers = m.peers := by
  rw [FMMonitor.leaveApp]
  split
  · rfl
  · split_ifs <;> rfl

omit [DecidableEq Peer] in
theorem onShout_peers (m : FMMonitor Peer Addr) (peer : Peer) (arg : Text) : (m.onShout peer arg).peers = m.peers := by
  rw [FMMonitor.onShout]
  split <;> rfl

/-- The peers that the monitor has after a round. -/
theorem handle_peers (m : FMMonitor Peer Addr) (e : GroupEvent Peer Addr) :
    (m.handle e).peers = match e with
      | .enter peer addr valid => if valid then m.peers.set peer addr else m.peers
      | .exit peer => m.peers.del peer
      | _ => m.peers := by
  cases e with
  | setupApp appName =>
    simp only [FMMonitor.handle, FMMonitor.setupApp]
    split_ifs <;> rfl
  | cleanupApp appName => rfl
  | addActor appName actorName =>
    simp only [FMMonitor.handle, FMMonitor.addActor]
    split <;> rfl
  | delActor appName actorName | dieActor appName actorName => exact loseActor_peers ..
  | enter peer addr valid =>
    simp only [FMMonitor.handle, FMMonitor.onEnter]
    split_ifs <;> rfl
  | join peer group =>
    simp only [FMMonitor.handle]
    split_ifs
    exacts [inGroup_peers (joinApp_peers m peer) group, rfl]
  | leave peer group =>
    simp only [FMMonitor.handle]
    split_ifs
    exacts [inGroup_peers (leaveApp_peers m peer) group, rfl]
  | exit peer =>
    simp only [FMMonitor.handle]
    split_ifs with hp
    exacts [rfl, (Dict.del_of_notMem hp).symm]
  | shout peer arg | whisper peer arg =>
    simp only [FMMonitor.handle]
    split_ifs
    exacts [onShout_peers .., rfl]

theorem Known.start : (start : Neighbours Peer Addr).Known where
  peers peer := by simp [Neighbours.start]
  joined i hi := absurd hi List.not_mem_nil

theorem Known.step (hk : n.Known) (h : n.Tracks) (e : GroupEvent Peer Addr) : (n.step e).Known := by
  by_cases ha : n.allows e
  · rw [h.step_eq ha]
    have hold : ∀ m : FMMonitor Peer Addr, m.peers = n.mon.peers → Known { n with mon := m } := fun m hm =>
      ⟨fun peer => hm ▸ hk.peers peer, hk.joined⟩
    have hmon := handle_peers n.mon e
    cases e with
    | setupApp appName | cleanupApp appName => exact ⟨fun peer => hmon ▸ hk.peers peer, hk.joined⟩
    | addActor appName actorName | delActor appName actorName | dieActor appName actorName => exact hold _ hmon
    | shout peer arg | whisper peer arg => exact hold _ hmon
    | enter peer addr valid =>
      refine ⟨fun q => ?_, fun i hi => Dict.mem_set.mpr (.inr (hk.joined i hi))⟩
      have hnew : peer ∉ n.mon.peers := by
        rw [hk.peers, Dict.get?_eq_none_iff.mpr (by simpa [allows] using ha)]
        exact (Option.some_ne_none true).symm
      show q ∈ (n.mon.handle (.enter peer addr valid)).peers ↔ (n.entered.set peer valid).get? q = some true
      rw [hmon, Dict.get?_set]
      by_cases hq : q = peer
      · subst hq
        cases valid <;> simp [hnew]
      · rw [if_neg hq, ← hk.peers]
        cases valid <;> simp [hq]
    | join peer group =>
      refine ⟨fun q => hmon ▸ hk.peers q, fun i hi => ?_⟩
      rcases List.mem_insert_iff.mp hi with rfl | hi
      · have hin : peer ∈ n.entered := by simpa [allows] using ha
        exact hin
      · exact hk.joined i hi
    | leave peer group => exact ⟨fun q => hmon ▸ hk.peers q, fun i hi => hk.joined i (List.mem_filter.mp hi).1⟩
    | exit peer =>
      refine ⟨fun q => ?_, fun i hi => ?_⟩
      · show q ∈ (n.mon.handle (.exit peer)).peers ↔ (n.entered.del peer).get? q = some true
        rw [hmon, Dict.get?_del, Dict.mem_del, hk.peers]
        by_cases hq : q = peer <;> simp [hq]
      · obtain ⟨hi, hne⟩ := List.mem_filter.mp hi
        exact Dict.mem_del.mpr ⟨hk.joined i hi, by simpa using hne⟩
  · rw [Neighbours.step, if_neg ha]
    exact hk

/-- **Exactly the runs that keep the groups right**, in every state that they pass. -/
theorem tracks_iff (events : List (GroupEvent Peer Addr)) :
    Always Neighbours.step Tracks start events ↔ AllSteps Neighbours.step KeepsIfAllowed start events :=
  always_iff_allSteps (I := Known) (fun _ e hk h => hk.step h e) (fun _ e hk h => h.step hk e) Known.start
    ⟨rfl, fun _ happ => absurd happ List.not_mem_nil⟩ events

/-- A peer joins the group of an application that is set up, and exits. One whose application is cleared up and set up
once more leaves its group. -/
theorem untracked :
    (¬ Always Neighbours.step Tracks (start : Neighbours ℕ ℕ)
      [.setupApp ⟨['a'], by decide⟩, .enter 1 7 true, .join 1 (groupName ⟨['a'], by decide⟩), .exit 1]) ∧
      (run Neighbours.step (start : Neighbours ℕ ℕ)
        [.setupApp ⟨['a'], by decide⟩, .enter 1 7 true, .join 1 (groupName ⟨['a'], by decide⟩),
          .cleanupApp ⟨['a'], by decide⟩, .setupApp ⟨['a'], by decide⟩,
          .leave 1 (groupName ⟨['a'], by decide⟩)]).mon.raised = true := by
  refine ⟨fun h => ?_, by decide +kernel⟩
  have hlast := (h.last.2 ⟨['a'], by decide⟩ (by decide +kernel)).2 1
  have hmember : ¬ Member (run Neighbours.step (start : Neighbours ℕ ℕ)
      [.setupApp ⟨['a'], by decide⟩, .enter 1 7 true, .join 1 (groupName ⟨['a'], by decide⟩), .exit 1])
      ⟨['a'], by decide⟩ 1 := fun hm => absurd hm.1 (by decide +kernel)
  exact hmember (hlast.mp (by decide +kernel))

end Neighbours

end Riaps.Deployment
