import Riaps.Deployment.DeploymentManager

/-!
# Messages about peers

The fault monitor tells the deployment manager of peers that an actor has found
or lost, and the manager passes this on to the actor's process. There is a way to
the process only when it has registered: then its record has a control socket,
and a device behind it with the identity of the process. Before, the messages are
put in a queue, and the registration sends what is in it.

The pid in a registration is not read: the device gets the identity of the process
in `launchMap`, and its port goes to the process that has sent the request. If that
is one which has been replaced in between, the queue goes to it, and the messages
never come to the process that runs (`late_registration`).

Three maps are read for a message, and a restart changes all of them. As long as
those who register are the processes that run (`Current`), the device and its port
are theirs, and what has been handled since such a process was recorded has been
sent to it, if it has registered, and is in the queue if it has not (`Queues`). So
a process that has registered has been sent just that (`delivers_run`).

Stopping an actor may fail: the record stays then, with its control socket, and no
process runs. The messages are numbered, so that two of them are told apart; the
numbers are read by nobody.
-/

namespace Riaps.Deployment

open Riaps.Foundation

/-- A message of the fault monitor. -/
structure PeerMessage where
  /-- `peer+`, and not `peer-`. -/
  on : Bool
  app : AppName
  actor : Text
  peer : Text
  deriving DecidableEq

/-- The qualified name of its actor. -/
def PeerMessage.key (m : PeerMessage) : Text := qualName m.app m.actor

/-- What is behind a control socket. -/
structure ClientChannel where
  /-- The process whose identity the device has. -/
  device : Proc
  /-- The process that was given the port of the device. -/
  client : Proc
  deriving DecidableEq

/-- A message that was sent on a control socket. -/
structure SentMessage where
  channel : ClientChannel
  /-- The process whose identity is in the header. -/
  header : Proc
  num : ℕ
  msg : PeerMessage
  deriving DecidableEq

/-- The manager, with what it has of its clients. -/
structure Clients where
  depm : DeploymentManager
  /-- `control`, for the actors whose record has one. -/
  control : Dict Text ClientChannel
  peerQueue : Dict Text (List (ℕ × PeerMessage))
  /-- What was sent. -/
  sent : List SentMessage
  /-- The number of messages that were handled. -/
  count : ℕ
  /-- The messages for each actor that were handled since its process was recorded, -/
  handled : Dict Text (List (ℕ × PeerMessage))
  /-- and how many had been handled then. -/
  since : Dict Text ℕ
  /-- The processes that have registered. -/
  registered : List Proc

namespace Clients

/-- A manager over a database. -/
def init (appDbase : AppDbase) : Clients := ⟨.init appDbase, .empty, .empty, [], 0, .empty, .empty, []⟩

/-- What was sent to a process: the device passes on what has its identity in the header. -/
def sentTo (s : Clients) (proc : Proc) : List (ℕ × PeerMessage) :=
  (s.sent.filter fun i => i.header = i.channel.device ∧ i.channel.client = proc).map fun i => (i.num, i.msg)

/-- `startActor`. The new record has no control socket, and the queue is new. -/
def startActor (appName : AppName) (appModel actorName : Text) (actorArgs : List Text) (pid : Option ℕ) (s : Clients) :
    Clients × Bool :=
  let key := qualName appName actorName
  let r := s.depm.startActor appName appModel actorName actorArgs pid
  if r.2 then
    ({ s with
        depm := r.1
        control := s.control.del key
        peerQueue := s.peerQueue.set key []
        handled := s.handled.set key []
        since := s.since.set key s.count }, true)
  else ({ s with depm := r.1 }, false)

/-- `stopActor`. A record that stays keeps its control socket. -/
def stopActor (r : Stop) (appName : AppName) (actorName : Text) (s : Clients) : Clients × Bool :=
  let key := qualName appName actorName
  let o := s.depm.stopActor r appName actorName
  ({ s with depm := o.1, control := if key ∈ o.1.actors then s.control else s.control.del key }, o.2)

/-- `handleProcmon`: an actor that runs is stopped and started. -/
def handleProcmon (r : Stop) (key : Text) (pid : Option ℕ) (s : Clients) : Clients × Bool :=
  match splitName key, s.depm.actors.get? key with
  | some (appName, actorName), some record =>
    if key ≠ DeploymentManager.discoName ∧ appName = record.app ∧ actorName = record.actor ∧ key ∈ s.depm.launchMap then
      let o := s.stopActor r appName actorName
      if o.2 then o.1.startActor appName record.model actorName record.args pid else o
    else ({ s with depm := (s.depm.handleProcmon r key pid).1 }, (s.depm.handleProcmon r key pid).2)
  | _, _ => ({ s with depm := (s.depm.handleProcmon r key pid).1 }, (s.depm.handleProcmon r key pid).2)

/-- The loop of `handlePeerQueue`, and its end. -/
def sendQueue (channel : ClientChannel) (proc : Proc) (key : Text) : List (ℕ × PeerMessage) → Clients → Clients × Bool
  | [], s => ({ s with peerQueue := s.peerQueue.set key [] }, true)
  | i :: msgs, s =>
    if i.2.key = key then sendQueue channel proc key msgs { s with sent := s.sent ++ [⟨channel, proc, i.1, i.2⟩] }
    else (s, false)

/-- `handlePeerQueue`, for the process `proc` of an actor. -/
def handlePeerQueue (proc : Proc) (key : Text) (s : Clients) : Clients × Bool :=
  match s.control.get? key, s.peerQueue.get? key with
  | some channel, some msgs => s.sendQueue channel proc key msgs
  | _, _ => (s, false)

/-- `handleActorReg` of an actor; whether all that is done before the record is replaced raises nothing. The request is
that of `client`, and its pid is not looked at. -/
def handleActorReg (ok : Bool) (client : Proc) (appName : AppName) (actorName : Text) (s : Clients) : Clients × Bool :=
  let key := qualName appName actorName
  match s.depm.launchMap.get? key with
  | some proc =>
    if key ∈ s.depm.actors then
      if ok then
        { s with
          control := s.control.set key ⟨proc, client⟩
          registered := s.registered ++ [client] }.handlePeerQueue proc key
      else (s, false)
    else (s, true)
  | none => (s, true)

/-- `handleFMMon`. -/
def handleFMMon (m : PeerMessage) (s : Clients) : Clients × Bool :=
  let i := (s.count, m)
  let s := { s with
    count := s.count + 1
    handled := match s.handled.get? m.key with
      | some msgs => s.handled.set m.key (msgs ++ [i])
      | none => s.handled }
  match s.depm.launchMap.get? m.key with
  | some proc =>
    if m.key ∈ s.depm.actors then
      match s.control.get? m.key with
      | some channel => ({ s with sent := s.sent ++ [⟨channel, proc, i.1, m⟩] }, true)
      | none =>
        match s.peerQueue.get? m.key with
        | some msgs => ({ s with peerQueue := s.peerQueue.set m.key (msgs ++ [i]) }, true)
        | none => (s, false)
    else (s, true)
  | none => (s, true)

/-- What happens to an actor. -/
inductive Event where
  | startActor (appName : AppName) (appModel actorName : Text) (actorArgs : List Text) (pid : Option ℕ)
  | haltActor (r : Stop) (appName : AppName) (actorName : Text)
  | handleProcmon (r : Stop) (key : Text) (pid : Option ℕ)
  | handleActorReg (ok : Bool) (client : Proc) (appName : AppName) (actorName : Text)
  | handleFMMon (m : PeerMessage)

/-- One event. -/
def step (s : Clients) : Event → Clients
  | .startActor appName appModel actorName actorArgs pid => (s.startActor appName appModel actorName actorArgs pid).1
  | .haltActor r appName actorName => (s.stopActor r appName actorName).1
  | .handleProcmon r key pid => (s.handleProcmon r key pid).1
  | .handleActorReg ok client appName actorName => (s.handleActorReg ok client appName actorName).1
  | .handleFMMon m => (s.handleFMMon m).1

/-- What a process that has registered was sent is what was handled for its actor since it was recorded, in that
order, and nothing that was handled before. -/
structure Delivers (s : Clients) : Prop where
  sent : ∀ key proc, s.depm.launchMap.get? key = some proc → proc ∈ s.registered →
    s.handled.get? key = some (s.sentTo proc)
  since : ∀ key proc, s.depm.launchMap.get? key = some proc → ∀ i ∈ s.sentTo proc, ∃ n ∈ s.since.get? key, n ≤ i.1

/-- A registration that goes through is that of the process which is recorded. -/
def Current (s : Clients) : Event → Prop
  | .handleActorReg ok client appName actorName =>
    ok = true → qualName appName actorName ∈ s.depm.actors →
      ∀ proc ∈ s.depm.launchMap.get? (qualName appName actorName), client = proc
  | _ => True

/-! ### The manager below -/

/-- The event of the manager. -/
def Event.manager : Event → Option DeploymentManager.Event
  | .startActor appName appModel actorName actorArgs pid =>
    some (.call (.startActor appName appModel actorName actorArgs pid))
  | .haltActor r appName actorName => some (.call (.haltActor r appName actorName))
  | .handleProcmon r key pid => some (.handleProcmon r key pid)
  | .handleActorReg .. | .handleFMMon _ => none

variable {s s' : Clients}

theorem startActor_depm (s : Clients) (appName : AppName) (appModel actorName : Text) (actorArgs : List Text)
    (pid : Option ℕ) : (s.startActor appName appModel actorName actorArgs pid).1.depm =
      (s.depm.startActor appName appModel actorName actorArgs pid).1 := by
  simp only [startActor]
  split_ifs <;> rfl

theorem handleProcmon_depm (s : Clients) (r : Stop) (key : Text) (pid : Option ℕ) :
    (s.handleProcmon r key pid).1.depm = (s.depm.handleProcmon r key pid).1 := by
  cases hsplit : splitName key with
  | none => simp only [handleProcmon, hsplit]
  | some named =>
    obtain ⟨appName, actorName⟩ := named
    cases hactor : s.depm.actors.get? key with
    | none => simp only [handleProcmon, hsplit, hactor]
    | some record =>
      simp only [handleProcmon, hsplit, hactor]
      split_ifs with hrun hstop
      · obtain ⟨hdisco, happ, hname, hmem⟩ := hrun
        rw [DeploymentManager.handleProcmon, if_neg hdisco, hsplit]
        simp only [hactor, happ, hname, hmem, and_self, if_true]
        rw [← happ, ← hname]
        rw [startActor_depm, DeploymentManager.andThen_of_ok hstop]
        rfl
      · obtain ⟨hdisco, happ, hname, hmem⟩ := hrun
        rw [DeploymentManager.handleProcmon, if_neg hdisco, hsplit]
        simp only [hactor, happ, hname, hmem, and_self, if_true]
        rw [← happ, ← hname]
        rw [DeploymentManager.andThen_of_not_ok (Bool.eq_false_iff.mpr hstop)]
        rfl
      · rfl

/-- **The manager goes through the steps of the model below.** -/
theorem step_depm {e : Event} {d : DeploymentManager.Event} (h : e.manager = some d) :
    (s.step e).depm = s.depm.step d := by
  cases e with
  | startActor appName appModel actorName actorArgs pid =>
    obtain rfl := Option.some.inj h
    exact s.startActor_depm ..
  | haltActor r appName actorName =>
    obtain rfl := Option.some.inj h
    rfl
  | handleProcmon r key pid =>
    obtain rfl := Option.some.inj h
    exact s.handleProcmon_depm r key pid
  | handleActorReg | handleFMMon => exact absurd h.symm (Option.some_ne_none d)

/-! ### The queue of a process that runs -/

/-- What the maps have for an actor whose process runs. -/
structure Row (s : Clients) (key : Text) (proc : Proc) : Prop where
  actor : key ∈ s.depm.actors
  keys : ∀ msgs ∈ s.peerQueue.get? key, ∀ i ∈ msgs, i.2.key = key
  since : ∃ n ∈ s.since.get? key, n ≤ s.count ∧ (∀ msgs ∈ s.peerQueue.get? key, ∀ i ∈ msgs, n ≤ i.1) ∧
    ∀ i ∈ s.sentTo proc, n ≤ i.1
  /-- It has not registered: all that was handled is in the queue. -/
  waiting : s.control.get? key = none → proc ∉ s.registered ∧ s.sentTo proc = [] ∧
    ∃ msgs, s.peerQueue.get? key = some msgs ∧ s.handled.get? key = some msgs
  /-- It has: all that was handled was sent. -/
  going : ∀ channel ∈ s.control.get? key, channel = ⟨proc, proc⟩ ∧ s.peerQueue.get? key = some [] ∧
    s.handled.get? key = some (s.sentTo proc)

/-- The invariant. -/
structure Queues (s : Clients) : Prop where
  tables : s.depm.Tables
  noDevice : ∀ key, key ∉ s.depm.devices
  fresh : ∀ i ∈ s.sent, i.channel.client.num < s.depm.procs
  registered : ∀ proc ∈ s.registered, proc.num < s.depm.procs
  row : ∀ key proc, s.depm.launchMap.get? key = some proc → s.Row key proc

theorem Queues.init (appDbase : AppDbase) : (init appDbase).Queues where
  tables := DeploymentManager.Tables.init appDbase
  noDevice key := Dict.not_mem_empty key
  fresh _ hi := absurd hi List.not_mem_nil
  registered _ hproc := absurd hproc List.not_mem_nil
  row _ proc hget := absurd hget.symm (Option.some_ne_none proc)

/-- The invariant has what is wanted. -/
theorem Queues.delivers (h : s.Queues) : s.Delivers where
  sent key proc hproc hreg := by
    have hrow := h.row key proc hproc
    cases hcontrol : s.control.get? key with
    | none => exact absurd hreg (hrow.waiting hcontrol).1
    | some channel => exact (hrow.going channel hcontrol).2.2
  since key proc hproc i hi := by
    obtain ⟨n, hn, -, -, hsent⟩ := (h.row key proc hproc).since
    exact ⟨n, hn, hsent i hi⟩

/-- The maps have the same for the actor, and no more was sent to its process. -/
theorem Row.of_same {key : Text} {proc : Proc} (h : s.Row key proc) (hactor : key ∈ s'.depm.actors)
    (hqueue : s'.peerQueue.get? key = s.peerQueue.get? key) (hsince : s'.since.get? key = s.since.get? key)
    (hcontrol : s'.control.get? key = s.control.get? key) (hhandled : s'.handled.get? key = s.handled.get? key)
    (hsent : s'.sentTo proc = s.sentTo proc) (hreg : proc ∈ s'.registered → proc ∈ s.registered)
    (hcount : s.count ≤ s'.count) : s'.Row key proc := by
  refine ⟨hactor, hqueue ▸ h.keys, ?_, fun hnone => ?_, fun channel hchannel => ?_⟩
  · obtain ⟨n, hn, hle, hqueued, hold⟩ := h.since
    exact ⟨n, hsince ▸ hn, hle.trans hcount, hqueue ▸ hqueued, hsent ▸ hold⟩
  · rw [hqueue, hhandled, hsent]
    obtain ⟨hno, hrest⟩ := h.waiting (hcontrol ▸ hnone)
    exact ⟨fun hin => hno (hreg hin), hrest⟩
  · rw [hqueue, hhandled, hsent]
    exact h.going channel (hcontrol ▸ hchannel)

/-! ### Starting and stopping -/

theorem Queues.startActor (h : s.Queues) (appName : AppName) (appModel actorName : Text) (actorArgs : List Text)
    (pid : Option ℕ) : (s.startActor appName appModel actorName actorArgs pid).1.Queues := by
  cases pid with
  | none => exact h
  | some pid =>
    have htables := h.tables.startActor appName appModel actorName actorArgs (some pid)
    constructor
    · exact htables
    · exact h.noDevice
    · exact fun i hi => Nat.lt_succ_of_lt (h.fresh i hi)
    · exact fun proc hproc => Nat.lt_succ_of_lt (h.registered proc hproc)
    · intro key proc hproc
      change (s.depm.launchMap.set (qualName appName actorName)
        ⟨s.depm.procs, pid, qualName appName actorName, appModel, actorArgs, false⟩).get? key = some proc at hproc
      rcases Dict.get?_set_eq_some.mp hproc with ⟨rfl, rfl⟩ | ⟨hne, hold⟩
      · -- the process is new: nothing was sent to it
        have hnil : s.sentTo ⟨s.depm.procs, pid, qualName appName actorName, appModel, actorArgs, false⟩ = [] := by
          refine List.map_eq_nil_iff.mpr (List.filter_eq_nil_iff.mpr fun i hi hto => ?_)
          have hlt := h.fresh i hi
          rw [(of_decide_eq_true hto).2] at hlt
          exact Nat.lt_irrefl _ hlt
        refine ⟨Dict.mem_set.mpr (.inl rfl), ?_, ?_, fun _ => ⟨fun hreg => ?_, hnil, [], ?_, ?_⟩,
          fun channel hchannel => ?_⟩
        · intro msgs hmsgs
          obtain rfl := Option.some.inj ((Dict.get?_set_self ..).symm.trans hmsgs)
          exact fun i hi => absurd hi List.not_mem_nil
        · refine ⟨s.count, Dict.get?_set_self .., le_rfl, fun msgs hmsgs => ?_, fun i hi => ?_⟩
          · obtain rfl := Option.some.inj ((Dict.get?_set_self ..).symm.trans hmsgs)
            exact fun i hi => absurd hi List.not_mem_nil
          · exact absurd (hnil ▸ hi) List.not_mem_nil
        · exact Nat.lt_irrefl _ (h.registered _ hreg)
        · exact Dict.get?_set_self ..
        · exact Dict.get?_set_self ..
        · change (s.control.del (qualName appName actorName)).get? (qualName appName actorName) = some channel
            at hchannel
          rw [Dict.get?_del, if_pos rfl] at hchannel
          exact absurd hchannel.symm (Option.some_ne_none channel)
      · refine (h.row key proc hold).of_same (Dict.mem_set.mpr (.inr (h.row key proc hold).actor))
          (Dict.get?_set_of_ne _ _ hne) (Dict.get?_set_of_ne _ _ hne) ?_ (Dict.get?_set_of_ne _ _ hne) rfl id le_rfl
        exact (Dict.get?_del ..).trans (if_neg hne)

/-- What stopping an actor does, whatever comes of it. -/
theorem Queues.stopActor_spec (h : s.Queues) (r : Stop) (appName : AppName) (actorName : Text) :
    ∃ depm control, (s.stopActor r appName actorName).1 = { s with depm := depm, control := control } ∧
      depm.Tables ∧ depm.devices = s.depm.devices ∧ depm.procs = s.depm.procs ∧
      depm.launchMap = s.depm.launchMap.del (qualName appName actorName) ∧
      ∀ key ≠ qualName appName actorName,
        (key ∈ s.depm.actors → key ∈ depm.actors) ∧ control.get? key = s.control.get? key := by
  have hkeeps : (s.depm.stopActor r appName actorName).1.devices = s.depm.devices ∧
      (s.depm.stopActor r appName actorName).1.procs = s.depm.procs ∧ ∀ key ≠ qualName appName actorName,
        key ∈ s.depm.actors → key ∈ (s.depm.stopActor r appName actorName).1.actors := by
    rcases h.tables.stopActor_cases r appName actorName with ⟨-, heq⟩ | ⟨_, -, -, heq⟩ | ⟨_, -, -, -, heq⟩ |
      ⟨_, -, -, -, heq⟩ | ⟨_, -, -, -, heq⟩ <;> rw [heq]
    case inr.inr.inr.inr => exact ⟨rfl, rfl, fun key hne hin => Dict.mem_del.mpr ⟨hin, hne⟩⟩
    all_goals exact ⟨rfl, rfl, fun _ _ => id⟩
  refine ⟨_, _, rfl, h.tables.stopActor r appName actorName, hkeeps.1, hkeeps.2.1, s.depm.stopActor_launchMap ..,
    fun key hne => ⟨hkeeps.2.2 key hne, ?_⟩⟩
  split_ifs
  · rfl
  · exact (Dict.get?_del ..).trans (if_neg hne)

theorem Queues.stopActor (h : s.Queues) (r : Stop) (appName : AppName) (actorName : Text) :
    (s.stopActor r appName actorName).1.Queues := by
  obtain ⟨depm, control, heq, htables, hdevices, hprocs, hmap, hkeys⟩ := h.stopActor_spec r appName actorName
  rw [heq]
  refine ⟨htables, fun key => hdevices ▸ h.noDevice key, fun i hi => hprocs ▸ h.fresh i hi,
    fun proc hproc => hprocs ▸ h.registered proc hproc, fun key proc hproc => ?_⟩
  change depm.launchMap.get? key = some proc at hproc
  rw [hmap, Dict.get?_del] at hproc
  split_ifs at hproc with hne
  have hrow := h.row key proc hproc
  exact hrow.of_same ((hkeys key hne).1 hrow.actor) rfl rfl (hkeys key hne).2 rfl rfl id le_rfl

/-- A message that restarts no actor. -/
theorem Queues.of_handleProcmon (h : s.Queues) {r : Stop} {key : Text} {pid : Option ℕ}
    (hno : ∀ a, s.depm.actors.get? key = some a → key = DeploymentManager.discoName ∨ key ∉ s.depm.launchMap) :
    Queues { s with depm := (s.depm.handleProcmon r key pid).1 } := by
  have htables := h.tables.handleProcmon r key pid
  rcases h.tables.handleProcmon_cases r key pid with ⟨-, heq⟩ | ⟨a, hdisco, hget, -, hrun, -⟩ | ⟨a, -, -, hget, -, -⟩ |
    ⟨-, -, -, heq⟩ | ⟨-, -, -, heq⟩
  · rw [heq] at htables ⊢
    cases pid with
    | none => exact h
    | some pid =>
      refine ⟨htables, h.noDevice, fun i hi => Nat.lt_succ_of_lt (h.fresh i hi),
        fun proc hproc => Nat.lt_succ_of_lt (h.registered proc hproc), fun k proc hproc => ?_⟩
      exact (h.row k proc hproc).of_same (h.row k proc hproc).actor rfl rfl rfl rfl rfl id le_rfl
  · exact absurd hrun ((hno a hget).resolve_left hdisco)
  · exact absurd (Dict.mem_of_get? hget) (h.noDevice key)
  · rw [heq]
    exact h
  · rw [heq]
    exact h

theorem Queues.handleProcmon (h : s.Queues) (r : Stop) (key : Text) (pid : Option ℕ) :
    (s.handleProcmon r key pid).1.Queues := by
  cases hsplit : splitName key with
  | none =>
    simp only [Clients.handleProcmon, hsplit]
    refine h.of_handleProcmon fun a ha => ?_
    rw [h.tables.actors key a ha, splitName_qualName] at hsplit
    exact absurd hsplit (Option.some_ne_none _)
  | some named =>
    obtain ⟨appName, actorName⟩ := named
    cases hactor : s.depm.actors.get? key with
    | none =>
      simp only [Clients.handleProcmon, hsplit, hactor]
      exact h.of_handleProcmon fun a ha => absurd (ha.symm.trans hactor) (Option.some_ne_none a)
    | some record =>
      simp only [Clients.handleProcmon, hsplit, hactor]
      split_ifs with hrun
      · exact (h.stopActor r appName actorName).startActor ..
      · exact h.stopActor r appName actorName
      · refine h.of_handleProcmon fun a _ => ?_
        have hnames := h.tables.actors key record hactor
        rw [hnames, splitName_qualName] at hsplit
        obtain ⟨rfl, rfl⟩ := Prod.mk.inj (Option.some.inj hsplit)
        by_contra hnot
        rw [not_or, not_not] at hnot
        exact hrun ⟨hnot.1, rfl, rfl, hnot.2⟩

/-! ### Registration and messages -/

/-- What was sent to a process, with some messages more. -/
theorem sentTo_append {msgs : List SentMessage} (c : Clients) (hsent : c.sent = s.sent ++ msgs) (proc : Proc) :
    c.sentTo proc =
      s.sentTo proc ++
        (msgs.filter fun i => i.header = i.channel.device ∧ i.channel.client = proc).map fun i => (i.num, i.msg) := by
  rw [sentTo, hsent, List.filter_append, List.map_append]
  rfl

/-- The queue of an actor is sent, message after message. -/
theorem sendQueue_eq {key : Text} {msgs : List (ℕ × PeerMessage)} (hkeys : ∀ i ∈ msgs, i.2.key = key)
    (channel : ClientChannel) (proc : Proc) (s : Clients) :
    s.sendQueue channel proc key msgs =
      ({ s with
          sent := s.sent ++ msgs.map fun i => ⟨channel, proc, i.1, i.2⟩
          peerQueue := s.peerQueue.set key [] }, true) := by
  induction msgs generalizing s with
  | nil => simp [sendQueue]
  | cons i msgs ih =>
    obtain ⟨hkey, hrest⟩ := List.forall_mem_cons.mp hkeys
    rw [sendQueue, if_pos hkey, ih hrest]
    simp

/-- What was handled is what was sent and what is in the queue. -/
theorem Row.queued {key : Text} {proc : Proc} (h : s.Row key proc) :
    ∃ msgs, s.peerQueue.get? key = some msgs ∧ s.handled.get? key = some (s.sentTo proc ++ msgs) := by
  cases hcontrol : s.control.get? key with
  | none =>
    obtain ⟨-, hsent, msgs, hqueue, hhandled⟩ := h.waiting hcontrol
    exact ⟨msgs, hqueue, by rw [hsent, hhandled, List.nil_append]⟩
  | some channel =>
    obtain ⟨-, hqueue, hhandled⟩ := h.going channel hcontrol
    exact ⟨[], hqueue, by rw [hhandled, List.append_nil]⟩

/-- What changes is what the maps have for one actor, and messages to its process. -/
theorem Queues.of_own (h : s.Queues) {key : Text} {proc : Proc} (hproc : s.depm.launchMap.get? key = some proc)
    (hdepm : s'.depm = s.depm) (msgs : List SentMessage) (hsent : s'.sent = s.sent ++ msgs)
    (hmsgs : ∀ i ∈ msgs, i.channel.client = proc) (hreg : ∀ p ∈ s'.registered, p ∈ s.registered ∨ p = proc)
    (hcount : s.count ≤ s'.count)
    (hmaps : ∀ k ≠ key, s'.peerQueue.get? k = s.peerQueue.get? k ∧ s'.since.get? k = s.since.get? k ∧
      s'.control.get? k = s.control.get? k ∧ s'.handled.get? k = s.handled.get? k)
    (hrow : s'.Row key proc) : s'.Queues := by
  have hnum : proc.num < s.depm.procs := h.tables.fresh proc (h.tables.launched key proc hproc).2
  constructor
  · exact hdepm ▸ h.tables
  · exact hdepm ▸ h.noDevice
  · intro i hi
    rw [hsent] at hi
    rw [hdepm]
    rcases List.mem_append.mp hi with hold | hnew
    · exact h.fresh i hold
    · exact (hmsgs i hnew).symm ▸ hnum
  · intro p hp
    rw [hdepm]
    rcases hreg p hp with hold | rfl
    exacts [h.registered p hold, hnum]
  · intro k p hp
    rw [hdepm] at hp
    by_cases hk : k = key
    · subst hk
      obtain rfl := Option.some.inj (hproc.symm.trans hp)
      exact hrow
    · -- another actor has another process
      have hne : p ≠ proc := by
        rintro rfl
        exact hk ((h.tables.launched k p hp).1.symm.trans (h.tables.launched key p hproc).1)
      obtain ⟨hqueue, hsince, hcontrol, hhandled⟩ := hmaps k hk
      have hold := h.row k p hp
      refine hold.of_same (hdepm ▸ hold.actor) hqueue hsince hcontrol hhandled ?_ (fun hin => ?_) hcount
      · have hnil : (msgs.filter fun i => i.header = i.channel.device ∧ i.channel.client = p) = [] :=
          List.filter_eq_nil_iff.mpr fun i hi => by simp [hmsgs i hi, Ne.symm hne]
        rw [sentTo_append _ hsent, hnil, List.map_nil, List.append_nil]
      · exact (hreg p hin).resolve_right hne

/-- A registration of the process that is recorded, if it goes through. -/
theorem Queues.handleActorReg (h : s.Queues) {ok : Bool} {client : Proc} {appName : AppName} {actorName : Text}
    (hcurrent : s.Current (.handleActorReg ok client appName actorName)) :
    (s.handleActorReg ok client appName actorName).1.Queues := by
  cases hproc : s.depm.launchMap.get? (qualName appName actorName) with
  | none =>
    simp only [Clients.handleActorReg, hproc]
    exact h
  | some proc =>
    have hrow := h.row _ proc hproc
    cases ok with
    | false =>
      simp only [Clients.handleActorReg, hproc, if_pos hrow.actor]
      exact h
    | true =>
      obtain rfl := hcurrent rfl hrow.actor proc hproc
      obtain ⟨msgs, hqueue, hhandled⟩ := hrow.queued
      obtain ⟨n, hn, hle, hqueued, hold⟩ := hrow.since
      have hsend := sendQueue_eq (hrow.keys msgs hqueue) ⟨client, client⟩ client
        { s with
          control := s.control.set (qualName appName actorName) ⟨client, client⟩
          registered := s.registered ++ [client] }
      -- after it, all that was in the queue has been sent
      have hsent : ∀ c : Clients, c.sent = s.sent ++ msgs.map (fun i => ⟨⟨client, client⟩, client, i.1, i.2⟩) →
          c.sentTo client = s.sentTo client ++ msgs := by
        intro c hc
        rw [sentTo_append c hc]
        simp [List.filter_map, Function.comp_def]
      simp only [Clients.handleActorReg, hproc, if_pos hrow.actor, handlePeerQueue, Dict.get?_set_self, hqueue, if_true,
        hsend]
      refine h.of_own hproc rfl (msgs.map fun i => ⟨⟨client, client⟩, client, i.1, i.2⟩) rfl (fun i hi => ?_)
        (fun p hp => ?_) le_rfl (fun k hk => ⟨Dict.get?_set_of_ne _ _ hk, rfl, Dict.get?_set_of_ne _ _ hk, rfl⟩)
        ⟨hrow.actor, fun qs hqs => ?_, ⟨n, hn, hle, fun qs hqs => ?_, fun i hi => ?_⟩, fun hnone => ?_,
          fun channel hchannel => ⟨?_, Dict.get?_set_self .., ?_⟩⟩
      · obtain ⟨j, -, rfl⟩ := List.mem_map.mp hi
        rfl
      · exact (List.mem_append.mp hp).imp_right List.mem_singleton.mp
      · obtain rfl := Option.some.inj ((Dict.get?_set_self ..).symm.trans hqs)
        exact fun i hi => absurd hi List.not_mem_nil
      · obtain rfl := Option.some.inj ((Dict.get?_set_self ..).symm.trans hqs)
        exact fun i hi => absurd hi List.not_mem_nil
      · rw [hsent _ rfl] at hi
        exact (List.mem_append.mp hi).elim (hold i) (hqueued msgs hqueue i)
      · exact absurd ((Dict.get?_set_self ..).symm.trans hnone) (Option.some_ne_none _)
      · exact (Option.some.inj ((Dict.get?_set_self ..).symm.trans hchannel)).symm
      · exact hhandled.trans (congrArg some (hsent _ rfl).symm)

theorem Queues.handleFMMon (h : s.Queues) (m : PeerMessage) : (s.handleFMMon m).1.Queues := by
  cases hproc : s.depm.launchMap.get? m.key with
  | none =>
    simp only [Clients.handleFMMon, hproc]
    refine ⟨h.tables, h.noDevice, h.fresh, h.registered, fun k p hp => ?_⟩
    have hk : k ≠ m.key := by
      rintro rfl
      exact absurd (hp.symm.trans hproc) (Option.some_ne_none p)
    refine (h.row k p hp).of_same (h.row k p hp).actor rfl rfl rfl ?_ rfl id (Nat.le_succ _)
    dsimp only
    split
    exacts [Dict.get?_set_of_ne _ _ hk, rfl]
  | some proc =>
    have hrow := h.row _ proc hproc
    obtain ⟨msgs, hqueue, hhandled⟩ := hrow.queued
    obtain ⟨n, hn, hle, hqueued, hold⟩ := hrow.since
    cases hcontrol : s.control.get? m.key with
    | some channel =>
      obtain ⟨rfl, hnil, hsent⟩ := hrow.going channel hcontrol
      have hsentTo : ∀ c : Clients, c.sent = s.sent ++ [⟨⟨proc, proc⟩, proc, s.count, m⟩] →
          c.sentTo proc = s.sentTo proc ++ [(s.count, m)] := by
        intro c hc
        rw [sentTo_append c hc]
        simp
      simp only [Clients.handleFMMon, hproc, if_pos hrow.actor, hcontrol, hsent]
      refine h.of_own hproc rfl [⟨⟨proc, proc⟩, proc, s.count, m⟩] rfl
        (fun i hi => by rw [List.mem_singleton.mp hi])
        (fun p hp => .inl hp) (Nat.le_succ _) (fun k hk => ⟨rfl, rfl, rfl, Dict.get?_set_of_ne _ _ hk⟩)
        ⟨hrow.actor, hrow.keys, ⟨n, hn, hle.trans (Nat.le_succ _), hqueued, fun i hi => ?_⟩,
          fun hnone => absurd (hcontrol.symm.trans hnone) (Option.some_ne_none _), fun d hd => ⟨?_, hnil, ?_⟩⟩
      · rw [hsentTo _ rfl] at hi
        rcases List.mem_append.mp hi with hin | hnew
        · exact hold i hin
        · rw [List.mem_singleton.mp hnew]
          exact hle
      · exact (Option.some.inj (hcontrol.symm.trans hd)).symm
      · exact (Dict.get?_set_self ..).trans (congrArg some (hsentTo _ rfl).symm)
    | none =>
      obtain ⟨hno, hsent, msgs', hqueue', hhandled'⟩ := hrow.waiting hcontrol
      obtain rfl := Option.some.inj (hqueue.symm.trans hqueue')
      simp only [Clients.handleFMMon, hproc, if_pos hrow.actor, hcontrol, hhandled', hqueue]
      refine h.of_own hproc rfl [] (List.append_nil _).symm (fun i hi => absurd hi List.not_mem_nil)
        (fun p hp => .inl hp) (Nat.le_succ _)
        (fun k hk => ⟨Dict.get?_set_of_ne _ _ hk, rfl, rfl, Dict.get?_set_of_ne _ _ hk⟩)
        ⟨hrow.actor, fun qs hqs => ?_, ⟨n, hn, hle.trans (Nat.le_succ _), fun qs hqs => ?_, hold⟩,
          fun _ => ⟨hno, hsent, _, Dict.get?_set_self .., Dict.get?_set_self ..⟩,
          fun d hd => absurd (hcontrol.symm.trans hd) (Option.some_ne_none d).symm⟩
      · obtain rfl := Option.some.inj ((Dict.get?_set_self ..).symm.trans hqs)
        intro i hi
        rcases List.mem_append.mp hi with hin | hnew
        · exact hrow.keys msgs hqueue i hin
        · rw [List.mem_singleton.mp hnew]
      · obtain rfl := Option.some.inj ((Dict.get?_set_self ..).symm.trans hqs)
        intro i hi
        rcases List.mem_append.mp hi with hin | hnew
        · exact hqueued msgs hqueue i hin
        · rw [List.mem_singleton.mp hnew]
          exact hle

/-! ### Runs -/

theorem Queues.step (h : s.Queues) {e : Event} (he : s.Current e) : (s.step e).Queues := by
  cases e with
  | startActor appName appModel actorName actorArgs pid => exact h.startActor ..
  | haltActor r appName actorName => exact h.stopActor r appName actorName
  | handleProcmon r key pid => exact h.handleProcmon r key pid
  | handleActorReg ok client appName actorName => exact h.handleActorReg he
  | handleFMMon m => exact h.handleFMMon m

/-- **The messages about peers are delivered** as long as those who register are the processes that run: a process that
has registered has been sent those that were handled since it was recorded, in their order and each once, and none that
was handled before. -/
theorem delivers_run (appDbase : AppDbase) (events : List Event)
    (h : AllSteps step Current (init appDbase) events) : Always step Delivers (init appDbase) events :=
  fun pre hpre => (h.always (fun _ _ hs he => hs.step he) (Queues.init appDbase) pre hpre).delivers

/-- An actor is started, halted and started again, and a peer is found. -/
def restarted : List Event :=
  let app : AppName := ⟨['b'], by decide⟩
  [.startActor app ['m'] ['x'] [] (some 7), .haltActor .done app ['x'], .startActor app ['m'] ['x'] [] (some 8),
    .handleFMMon ⟨true, app, ['x'], ['p']⟩]

/-- The process that was halted, -/
def replaced : Proc := ⟨0, 7, ['b', '.', 'x'], ['m'], [], false⟩

/-- and the one that runs. -/
def current : Proc := ⟨1, 8, ['b', '.', 'x'], ['m'], [], false⟩

theorem delivers_restarted :
    Always step Delivers (init .init) (restarted ++ [.handleActorReg true current ⟨['b'], by decide⟩ ['x']]) := by
  refine delivers_run .init _ ?_
  refine allSteps_cons.mpr ⟨trivial, allSteps_cons.mpr ⟨trivial, allSteps_cons.mpr ⟨trivial, ?_⟩⟩⟩
  refine allSteps_cons.mpr ⟨trivial, allSteps_cons.mpr ⟨fun _ _ proc hproc => ?_, allSteps_nil⟩⟩
  have hmap : (run step (init .init) restarted).depm.launchMap.get? ['b', '.', 'x'] = some current := by decide +kernel
  exact Option.some.inj (hmap.symm.trans hproc)

/-- The request of the process that was halted is handled after the other one was started: the message goes to the port
that the old process was given, and the new one is not sent it when it registers. -/
theorem late_registration :
    let app : AppName := ⟨['b'], by decide⟩
    ¬Delivers (run step (init .init) (restarted ++
      [.handleActorReg true replaced app ['x'], .handleActorReg true current app ['x']])) := by
  intro _ h
  have hsent := h.sent ['b', '.', 'x'] current (by decide +kernel) (by decide +kernel)
  exact absurd hsent (by decide +kernel)

end Clients

end Riaps.Deployment
