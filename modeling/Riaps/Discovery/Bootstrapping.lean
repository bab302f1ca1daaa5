import Riaps.Discovery.PeerMon
import Riaps.Foundation.Channels
import Riaps.Foundation.Runs

/-!
# How the tables of the discovery servers find each other

The threads of the discovery servers on one network. Connections are made and lost and made again at
any time, while events of the old ones are still on their way; servers join the group and stop; and
other programs join what they like, and send what they like to whom they like.

A table is bootstrapped with nothing but the nodes of other servers; and of two servers that are
connected and have got all that was sent between them, each with the other's (`bootstrapped_run`).
What carries this is that a port is always on its way (`Coming`): the other is still to hear that the
server has joined, or the server is still to hear the port, or has heard it.
-/

namespace Riaps.Discovery

open Riaps.Foundation

universe u

/-! ### The network -/

/-- The state: which nodes are connected, which servers are in the group or have stopped, the events of each node that
are on their way to each other, and the threads. -/
structure ZyreNet (ι : Type u) where
  met : ι → ι → Bool
  joined : ι → Bool
  stopped : ι → Bool
  /-- By the node that they are of, and the node that they come to. -/
  chan : ι → ι → List ZyreEvent
  mon : ι → DhtPeerMon ι

/-- What happens on the network. -/
inductive ZyreMove (ι : Type u) where
  /-- Two nodes are connected. -/
  | meet (i j : ι)
  /-- They are connected no longer. -/
  | lose (i j : ι)
  /-- A server joins the group. -/
  | join (i : ι)
  /-- It stops. -/
  | stop (i : ι)
  /-- Another program sends something: that it joins or leaves some group, or a message. -/
  | send (k l : ι) (e : ZyreEvent)
  /-- The next event of one node comes to another. -/
  | deliver (i j : ι)

namespace ZyreNet

variable {ι : Type u} [DecidableEq ι] (Z : ZyreNodes ι)

/-- Nothing is connected. -/
def init : ZyreNet ι := ⟨fun _ _ => false, fun _ => false, fun _ => false, fun _ _ => [], fun _ => .init⟩

/-- Events of a node go to all that it is connected with, of some. -/
def post (i : ι) (who : ι → Bool) (es : List ZyreEvent) (s : ZyreNet ι) : ZyreNet ι :=
  { s with chan := fun a b => if a = i ∧ who b ∧ s.met a b then s.chan a b ++ es else s.chan a b }

/-- The two are `i` and `j`. -/
def pair (i j a b : ι) : Bool := a = i ∧ b = j ∨ a = j ∧ b = i

/-- What a node that is connected learns of the other: that it enters, and the group that it is in. -/
def greeting (s : ZyreNet ι) (i : ι) : List ZyreEvent :=
  .enter (Z.endpoint i) (Z.headers i) :: if s.joined i then [.join DhtPeerMon.peerGroupName] else []

/-- Two nodes are connected, or no longer, and told so. -/
def connect (i j : ι) (on : Bool) (notes : ι → List ZyreEvent) (s : ZyreNet ι) : ZyreNet ι :=
  { s with
    met := fun a b => if pair i j a b then on else s.met a b
    chan := fun a b => if pair i j a b then s.chan a b ++ notes a else s.chan a b }

/-- Two nodes are connected. -/
def meet (i j : ι) (s : ZyreNet ι) : ZyreNet ι :=
  if i = j ∨ s.met i j then s else s.connect i j true (s.greeting Z)

/-- Two nodes are connected no longer. -/
def lose (i j : ι) (s : ZyreNet ι) : ZyreNet ι := if s.met i j then s.connect i j false fun _ => [.exit] else s

/-- `zyre.join`, when the thread of a server begins. -/
def join (i : ι) (s : ZyreNet ι) : ZyreNet ι :=
  if (Z.disco i).isSome ∧ ¬s.stopped i ∧ ¬s.joined i then
    let s := s.post i (fun _ => true) [.join DhtPeerMon.peerGroupName]
    { s with joined := Function.update s.joined i true }
  else s

/-- `zyre.leave`, when it ends. -/
def stop (i : ι) (s : ZyreNet ι) : ZyreNet ι :=
  if s.joined i then
    let s := s.post i (fun _ => true) [.leave DhtPeerMon.peerGroupName]
    { s with joined := Function.update s.joined i false, stopped := Function.update s.stopped i true }
  else s

/-- What a node that is no server sends to one that it is connected with. -/
def send (k l : ι) (e : ZyreEvent) (s : ZyreNet ι) : ZyreNet ι :=
  match e with
  | .enter .. | .exit => s
  | .join _ | .leave _ | .message _ => if (Z.disco k).isSome then s else s.post k (· = l) [e]

/-- An event has come. -/
def taken (i j : ι) (rest : List ZyreEvent) (s : ZyreNet ι) : ZyreNet ι :=
  { s with chan := fun a b => if a = i ∧ b = j then rest else s.chan a b }

/-- An event comes to the thread of a server, which may whisper to the node that it is of. -/
def deliver (i j : ι) (s : ZyreNet ι) : ZyreNet ι :=
  match s.chan i j with
  | [] => s
  | e :: rest =>
    let s := s.taken i j rest
    match Z.disco j with
    | none => s
    | some host =>
      if s.stopped j ∨ (s.mon j).raised then s
      else
        let (m, whispers) := (s.mon j).onEvent Z.parse host.dhtPort i e
        { s with mon := Function.update s.mon j m }.post j (· = i) (whispers.map .message)

/-- What one move does. -/
def step (s : ZyreNet ι) : ZyreMove ι → ZyreNet ι
  | .meet i j => s.meet Z i j
  | .lose i j => s.lose i j
  | .join i => s.join Z i
  | .stop i => s.stop i
  | .send k l e => s.send Z k l e
  | .deliver i j => s.deliver Z i j

end ZyreNet

namespace ZyreNet

variable {ι : Type u} [DecidableEq ι] {Z : ZyreNodes ι} {s : ZyreNet ι}

/-! ### What holds of the network -/

/-- A server has another one among its peers. -/
def knows (s : ZyreNet ι) (j i : ι) : Bool := decide (i ∈ (s.mon j).peers)

/-- A port that one server has still to whisper, or another to get, or has got. -/
def Coming (h : DiscoHost) (s : ZyreNet ι) (i j : ι) : Prop :=
  Due entered (· = .join DhtPeerMon.peerGroupName) (s.knows i j) (s.chan j i) ∨
    Due entered (· = .message (DhtPeerMon.portMsg h.dhtPort)) (s.knows j i) (s.chan i j) ∨
      ZyreNodes.dhtAddress h ∈ (s.mon j).bootstraps

/-- What holds of the connections. -/
structure Linked (Z : ZyreNodes ι) (s : ZyreNet ι) : Prop where
  met_symm : ∀ i j, s.met i j = s.met j i
  met_self : ∀ i, s.met i i = false
  chan_self : ∀ i, s.chan i i = []
  /-- A server that is in the group has not stopped. -/
  running : ∀ i, s.joined i = true → s.stopped i = false
  sends : ∀ i j, ∀ e ∈ s.chan i j, Z.Sends i e
  raised : ∀ j, (s.mon j).raised = false
  valid : ∀ j, Z.Valid (s.mon j)
  bootstraps : ∀ j, ∀ a ∈ (s.mon j).bootstraps, ∃ i h, i ≠ j ∧ Z.disco i = some h ∧ a = ZyreNodes.dhtAddress h
  /-- When all has come, those that are connected know each other. -/
  knows : ∀ i j, (Z.disco i).isSome → (Z.disco j).isSome → s.stopped j = false →
    openAfter entered (s.knows j i) (s.chan i j) = s.met i j

/-- The invariant. -/
structure Meshed (Z : ZyreNodes ι) (s : ZyreNet ι) : Prop extends Linked Z s where
  coming : ∀ i j h, Z.disco i = some h → (Z.disco j).isSome → s.stopped i = false → s.joined j = true →
    s.met i j = true → s.Coming h i j

theorem meshed_init : Meshed Z (init : ZyreNet ι) where
  met_symm _ _ := rfl
  met_self _ := rfl
  chan_self _ := rfl
  running _ h := by cases h
  sends _ _ := nofun
  raised _ := rfl
  valid _ := nofun
  bootstraps _ := nofun
  knows _ _ _ _ _ := rfl
  coming _ _ _ _ _ _ _ h := by cases h

variable {i j : ι} {h : DiscoHost}

/-- What is sent is added, and what is known and got stays. -/
theorem Coming.mono {s' : ZyreNet ι} (hs : s.Coming h i j) (hknows : s'.knows i j = s.knows i j)
    (hknows' : s'.knows j i = s.knows j i) (hchan : s.chan j i <+: s'.chan j i) (hchan' : s.chan i j <+: s'.chan i j)
    (hboot : (s.mon j).bootstraps ⊆ (s'.mon j).bootstraps) : s'.Coming h i j := by
  obtain ⟨more, hmore⟩ := hchan
  obtain ⟨more', hmore'⟩ := hchan'
  rw [Coming, hknows, hknows', ← hmore, ← hmore']
  exact hs.imp (fun hd => hd.append more) (Or.imp (fun hd => hd.append more') fun ha => hboot ha)

/-! ### Sending -/

/-- Neither does the node that sends them enter or exit, nor are they another's. -/
def Quiet (Z : ZyreNodes ι) (i : ι) (es : List ZyreEvent) : Prop := ∀ e ∈ es, Z.Sends i e ∧ ∀ p, entered p e = p

omit [DecidableEq ι] in
theorem Quiet.openAfter_eq {es : List ZyreEvent} (hes : Quiet Z i es) (p : Bool) : openAfter entered p es = p := by
  induction es with
  | nil => rfl
  | cons e es ih =>
    obtain ⟨he, hes⟩ := List.forall_mem_cons.mp hes
    rw [openAfter_cons, he.2, ih hes]

variable {who : ι → Bool} {es : List ZyreEvent}

theorem chan_post (a b : ι) :
    (s.post i who es).chan a b = if a = i ∧ who b ∧ s.met a b then s.chan a b ++ es else s.chan a b := rfl

theorem chan_prefix_post (a b : ι) : s.chan a b <+: (s.post i who es).chan a b := by
  rw [chan_post]
  split_ifs
  exacts [List.prefix_append _ _, List.prefix_refl _]

theorem Linked.post (hs : Linked Z s) (hes : Quiet Z i es) : Linked Z (s.post i who es) where
  met_symm := hs.met_symm
  met_self := hs.met_self
  running := hs.running
  raised := hs.raised
  valid := hs.valid
  bootstraps := hs.bootstraps
  chan_self a := by
    rw [chan_post, if_neg, hs.chan_self]
    rintro ⟨-, -, hmet⟩
    rw [hs.met_self] at hmet
    cases hmet
  sends a b e he := by
    rw [chan_post] at he
    split_ifs at he with hab
    · obtain ⟨rfl, -⟩ := hab
      exact (List.mem_append.mp he).elim (hs.sends a b e) fun he => (hes e he).1
    · exact hs.sends a b e he
  knows a b ha hb hstopped := by
    have hknows := hs.knows a b ha hb hstopped
    rw [chan_post]
    split_ifs
    · rw [openAfter_append, hes.openAfter_eq]
      exact hknows
    · exact hknows

theorem Meshed.post (hs : Meshed Z s) (hes : Quiet Z i es) : Meshed Z (s.post i who es) where
  toLinked := hs.toLinked.post hes
  coming a b h ha hb hstopped hjoined hmet :=
    (hs.coming a b h ha hb hstopped hjoined hmet).mono rfl rfl (chan_prefix_post b a) (chan_prefix_post a b)
      (List.Subset.refl _)

/-- What another program sends changes nothing. -/
theorem Meshed.send (hs : Meshed Z s) (k l : ι) (e : ZyreEvent) : Meshed Z (s.send Z k l e) := by
  have hpost : (Z.disco k).isSome = false → Z.Sends k e → (∀ p, entered p e = p) →
      Meshed Z (s.post k (· = l) [e]) := by
    intro _ hsends hquiet
    refine hs.post fun e' he' => ?_
    obtain rfl := List.mem_singleton.mp he'
    exact ⟨hsends, hquiet⟩
  have hother : (Z.disco k).isSome = false → ∀ h, Z.disco k ≠ some h := by
    intro hk h hh
    rw [hh] at hk
    cases hk
  cases e with
  | enter addr headers => exact hs
  | exit => exact hs
  | join group | leave group | message msg =>
    rw [ZyreNet.send]
    split_ifs with hk
    · exact hs
    · rw [Bool.not_eq_true] at hk
      exact hpost hk (fun h hh => absurd hh (hother hk h)) fun _ => rfl

/-! ### Connections -/

theorem pair_iff {a b : ι} : pair i j a b = true ↔ a = i ∧ b = j ∨ a = j ∧ b = i := decide_eq_true_iff

theorem pair_symm (a b : ι) : pair i j a b = pair i j b a := by
  rw [Bool.eq_iff_iff, pair_iff, pair_iff]
  grind

theorem pair_self (hij : i ≠ j) (a : ι) : pair i j a a = false := by
  rw [Bool.eq_false_iff, Ne, pair_iff]
  grind

theorem met_connect {on : Bool} {notes : ι → List ZyreEvent} (a b : ι) :
    (s.connect i j on notes).met a b = if pair i j a b then on else s.met a b := rfl

theorem chan_connect {on : Bool} {notes : ι → List ZyreEvent} (a b : ι) :
    (s.connect i j on notes).chan a b = if pair i j a b then s.chan a b ++ notes a else s.chan a b := rfl

/-- A connection changes, and the two are told so, and of the group if they are connected. -/
theorem Meshed.connect (hs : Meshed Z s) {on : Bool} {notes : ι → List ZyreEvent} (hij : i ≠ j)
    (hsends : ∀ a, ∀ e ∈ notes a, Z.Sends a e) (hopen : ∀ a p, openAfter entered p (notes a) = on)
    (hjoin : on = true → ∀ a, s.joined a = true → ∀ p, Due entered (· = .join DhtPeerMon.peerGroupName) p (notes a)) :
    Meshed Z (s.connect i j on notes) where
  met_symm a b := by
    rw [met_connect, met_connect, pair_symm a b, hs.met_symm a b]
  met_self a := by
    rw [met_connect, pair_self hij]
    exact hs.met_self a
  chan_self a := by
    rw [chan_connect, pair_self hij]
    exact hs.chan_self a
  running := hs.running
  sends a b e he := by
    rw [chan_connect] at he
    split_ifs at he
    · exact (List.mem_append.mp he).elim (hs.sends a b e) (hsends a e)
    · exact hs.sends a b e he
  raised := hs.raised
  valid := hs.valid
  bootstraps := hs.bootstraps
  knows a b ha hb hstopped := by
    rw [met_connect, chan_connect]
    split_ifs
    · rw [openAfter_append, hopen]
    · exact hs.knows a b ha hb hstopped
  coming a b h ha hb hstopped hjoined hmet := by
    rw [met_connect] at hmet
    by_cases hab : pair i j a b = true
    · left
      rw [if_pos hab] at hmet
      rw [chan_connect, if_pos (pair_symm a b ▸ hab)]
      exact (hjoin hmet b hjoined _).prepend
    · rw [if_neg hab] at hmet
      refine (hs.coming a b h ha hb hstopped hjoined hmet).mono rfl rfl ?_ ?_ (List.Subset.refl _)
      · rw [chan_connect, if_neg (pair_symm a b ▸ hab)]
      · rw [chan_connect, if_neg hab]

theorem Meshed.meet (hs : Meshed Z s) (i j : ι) : Meshed Z (s.meet Z i j) := by
  rw [ZyreNet.meet]
  split_ifs with hmet
  · exact hs
  · refine hs.connect (fun hij => hmet (.inl hij)) (fun a e he => ?_) (fun a p => ?_) fun _ a ha p => ?_
    · rcases List.mem_cons.mp he with rfl | he
      · exact ⟨rfl, rfl⟩
      · split_ifs at he
        · rw [List.mem_singleton.mp he]
          exact fun _ _ => rfl
        · cases he
    · rw [greeting]
      split_ifs <;> rfl
    · rw [greeting, if_pos ha]
      exact ⟨[_], _, [], rfl, rfl, rfl⟩

theorem Meshed.lose (hs : Meshed Z s) (i j : ι) : Meshed Z (s.lose i j) := by
  rw [ZyreNet.lose]
  split_ifs with hmet
  · refine hs.connect (fun hij => ?_) (fun a e he => ?_) (fun a p => rfl) nofun
    · subst hij
      rw [hs.met_self] at hmet
      cases hmet
    · rw [List.mem_singleton.mp he]
      trivial
  · exact hs

/-! ### Joining -/

omit [DecidableEq ι] in
theorem quiet_join : Quiet Z i [.join DhtPeerMon.peerGroupName] := by
  intro e he
  rw [List.mem_singleton.mp he]
  exact ⟨fun _ _ => rfl, fun _ => rfl⟩

omit [DecidableEq ι] in
theorem quiet_leave : Quiet Z i [.leave DhtPeerMon.peerGroupName] := by
  intro e he
  rw [List.mem_singleton.mp he]
  exact ⟨fun _ _ => rfl, fun _ => rfl⟩

/-- Who joins tells all, -/
theorem Meshed.join (hs : Meshed Z s) (i : ι) : Meshed Z (s.join Z i) := by
  rw [ZyreNet.join]
  split_ifs with hi
  · have hpost : Meshed Z (s.post i (fun _ => true) [.join DhtPeerMon.peerGroupName]) := hs.post quiet_join
    refine ⟨⟨hpost.met_symm, hpost.met_self, hpost.chan_self, fun a ha => ?_, hpost.sends, hpost.raised, hpost.valid,
      hpost.bootstraps, hpost.knows⟩, fun a b h ha hb hstopped hjoined hmet => ?_⟩
    · by_cases hai : a = i
      · rw [hai]
        exact Bool.not_eq_true _ ▸ hi.2.1
      · exact hs.running a (Function.update_of_ne hai true s.joined ▸ ha)
    · by_cases hbi : b = i
      · subst hbi
        left
        have hback : s.met b a = true := (hs.met_symm b a).trans hmet
        have hopen := hs.knows b a hb (Option.isSome_of_eq_some ha) hstopped
        show Due entered _ (s.knows a b) ((s.post b (fun _ => true) _).chan b a)
        rw [chan_post, if_pos ⟨rfl, rfl, hback⟩]
        exact due_concat (hopen.trans hback) rfl
      · exact hpost.coming a b h ha hb hstopped (Function.update_of_ne hbi true s.joined ▸ hjoined) hmet
  · exact hs

/-- and who stops does. -/
theorem Meshed.stop (hs : Meshed Z s) (i : ι) : Meshed Z (s.stop i) := by
  rw [ZyreNet.stop]
  split_ifs with hi
  · have hpost : Meshed Z (s.post i (fun _ => true) [.leave DhtPeerMon.peerGroupName]) := hs.post quiet_leave
    have hrunning : ∀ a, Function.update s.stopped i true a = false → s.stopped a = false := by
      intro a ha
      by_cases hai : a = i
      · rw [hai, Function.update_self] at ha
        cases ha
      · exact Function.update_of_ne hai true s.stopped ▸ ha
    have hjoined : ∀ a, Function.update s.joined i false a = true → a ≠ i ∧ s.joined a = true := by
      intro a ha
      by_cases hai : a = i
      · rw [hai, Function.update_self] at ha
        cases ha
      · exact ⟨hai, Function.update_of_ne hai false s.joined ▸ ha⟩
    refine ⟨⟨hpost.met_symm, hpost.met_self, hpost.chan_self, fun a ha => ?_, hpost.sends, hpost.raised, hpost.valid,
      hpost.bootstraps, fun a b ha hb hstopped => hpost.knows a b ha hb (hrunning b hstopped)⟩,
      fun a b h ha hb hstopped hb' hmet => hpost.coming a b h ha hb (hrunning a hstopped) (hjoined b hb').2 hmet⟩
    rw [← hs.running a (hjoined a ha).2]
    exact Function.update_of_ne (hjoined a ha).1 true s.stopped
  · exact hs

/-! ### An event that comes -/

variable {e : ZyreEvent} {rest : List ZyreEvent}

theorem chan_taken (a b : ι) :
    (s.taken i j rest).chan a b = if a = i ∧ b = j then rest else s.chan a b := rfl

theorem Linked.ne (hs : Linked Z s) (hchan : s.chan i j = e :: rest) : i ≠ j := by
  rintro rfl
  cases (hs.chan_self i).symm.trans hchan

/-- An event that does not come from one server to another that listens. -/
theorem Meshed.taken (hs : Meshed Z s) (hchan : s.chan i j = e :: rest)
    (hskip : (Z.disco i).isSome → (Z.disco j).isSome → s.stopped j = true) : Meshed Z (s.taken i j rest) := by
  have hne := hs.ne hchan
  have hlistens : ∀ a b, (Z.disco a).isSome → (Z.disco b).isSome → s.stopped b = false → ¬(a = i ∧ b = j) := by
    rintro a b ha hb hstopped ⟨rfl, rfl⟩
    cases (hskip ha hb).symm.trans hstopped
  refine ⟨⟨hs.met_symm, hs.met_self, fun a => ?_, hs.running, fun a b e' he' => ?_, hs.raised, hs.valid, hs.bootstraps,
    fun a b ha hb hstopped => ?_⟩, fun a b h ha hb hstopped hjoined hmet => ?_⟩
  · rw [chan_taken, if_neg fun ha => hne (ha.1.symm.trans ha.2)]
    exact hs.chan_self a
  · rw [chan_taken] at he'
    split_ifs at he' with hab
    · obtain ⟨rfl, rfl⟩ := hab
      exact hs.sends a b e' (hchan ▸ List.mem_cons_of_mem _ he')
    · exact hs.sends a b e' he'
  · rw [chan_taken, if_neg (hlistens a b ha hb hstopped)]
    exact hs.knows a b ha hb hstopped
  · have ha' := Option.isSome_of_eq_some ha
    refine (hs.coming a b h ha hb hstopped hjoined hmet).mono rfl rfl ?_ ?_ (List.Subset.refl _)
    · rw [chan_taken, if_neg (hlistens b a hb ha' hstopped)]
    · rw [chan_taken, if_neg (hlistens a b ha' hb (hs.running b hjoined))]

/-- The thread has handled an event. -/
def heard (i j : ι) (rest : List ZyreEvent) (m : DhtPeerMon ι) (s : ZyreNet ι) : ZyreNet ι :=
  { s.taken i j rest with mon := Function.update s.mon j m }

variable {m : DhtPeerMon ι} {dhtPort : ℕ} {r : DhtPeerMon ι × List (List UInt8)}

theorem mon_heard (a : ι) : (s.heard i j rest m).mon a = if a = j then m else s.mon a := Function.update_apply ..

theorem knows_heard_of_ne {a b : ι} (hb : b ≠ j) : (s.heard i j rest m).knows b a = s.knows b a := by
  rw [ZyreNet.knows, ZyreNet.knows, mon_heard, if_neg hb]

open ZyreNodes (Heard) in
theorem knows_heard (hr : Heard i h dhtPort e (s.mon j) r) (a : ι) :
    (s.heard i j rest r.1).knows j a = if a = i then entered (s.knows j i) e else s.knows j a := by
  rw [ZyreNet.knows, ZyreNet.knows, ZyreNet.knows, mon_heard, if_pos rfl]
  split_ifs with hai
  · rw [hai]
    exact hr.peer
  · rw [decide_eq_decide, Dict.mem_iff_exists_get?, Dict.mem_iff_exists_get?, hr.other a hai]

open ZyreNodes (Heard) in
theorem Linked.heard (hs : Linked Z s) (hchan : s.chan i j = e :: rest) (hi : Z.disco i = some h)
    (hr : Heard i h dhtPort e (s.mon j) r) : Linked Z (s.heard i j rest r.1) := by
  have hne := hs.ne hchan
  refine ⟨hs.met_symm, hs.met_self, fun a => ?_, hs.running, fun a b e' he' => ?_, fun a => ?_, fun a => ?_,
    fun a => ?_, fun a b ha hb hstopped => ?_⟩
  · show (s.taken i j rest).chan a a = []
    rw [chan_taken, if_neg fun ha => hne (ha.1.symm.trans ha.2)]
    exact hs.chan_self a
  · change e' ∈ (s.taken i j rest).chan a b at he'
    rw [chan_taken] at he'
    split_ifs at he' with hab
    · obtain ⟨rfl, rfl⟩ := hab
      exact hs.sends a b e' (hchan ▸ List.mem_cons_of_mem _ he')
    · exact hs.sends a b e' he'
  · rw [mon_heard]
    split_ifs
    exacts [hr.raised.trans (hs.raised j), hs.raised a]
  · rw [mon_heard]
    split_ifs
    exacts [hr.valid (hs.valid j) hi, hs.valid a]
  · rw [mon_heard]
    split_ifs with haj
    · subst haj
      intro x hx
      rw [hr.bootstraps] at hx
      rcases List.mem_append.mp hx with hx | hx
      · exact hs.bootstraps a x hx
      · exact ⟨i, h, hne, hi, ZyreNodes.eq_of_mem_news hx⟩
    · exact hs.bootstraps a
  · have hknows := hs.knows a b ha hb hstopped
    show openAfter entered _ ((s.taken i j rest).chan a b) = s.met a b
    rw [chan_taken]
    by_cases hbj : b = j
    · subst hbj
      rw [knows_heard hr]
      split_ifs with hai hab hab
      · obtain rfl := hai
        rw [hchan, openAfter_cons] at hknows
        exact hknows
      · exact absurd ⟨hai, rfl⟩ hab
      · exact absurd hab.1 hai
      · exact hknows
    · rw [knows_heard_of_ne hbj, if_neg fun hab => hbj hab.2]
      exact hknows

theorem chan_heard (a b : ι) :
    (s.heard i j rest m).chan a b = if a = i ∧ b = j then rest else s.chan a b := rfl

theorem chan_prefix_heard {k a b : ι} (hab : ¬(a = i ∧ b = j)) :
    s.chan a b <+: ((s.heard i j rest m).post k who es).chan a b := by
  have hchan : (s.heard i j rest m).chan a b = s.chan a b := by rw [chan_heard, if_neg hab]
  exact hchan ▸ chan_prefix_post a b

open ZyreNodes (Heard) in
theorem bootstraps_heard (hr : Heard i h dhtPort e (s.mon j) r) (a : ι) :
    (s.mon a).bootstraps ⊆ ((s.heard i j rest r.1).mon a).bootstraps := by
  rw [mon_heard]
  split_ifs with haj
  · rw [haj, hr.bootstraps]
    exact List.subset_append_left _ _
  · exact List.Subset.refl _

open ZyreNodes (Heard) in
/-- The thread of a server that has got an event of another has answered it. -/
theorem Meshed.heard {host : DiscoHost} (hs : Meshed Z s) (hchan : s.chan i j = e :: rest) (hi : Z.disco i = some h)
    (hj : Z.disco j = some host) (hr : Heard i h host.dhtPort e (s.mon j) r) :
    Meshed Z ((s.heard i j rest r.1).post j (· = i) (r.2.map .message)) := by
  have hne := hs.ne hchan
  have hquiet : Quiet Z j (r.2.map .message) := by
    intro e' he'
    obtain ⟨msg, hmsg, rfl⟩ := List.mem_map.mp he'
    rw [hr.whispers] at hmsg
    refine ⟨fun host' hhost' => ?_, fun _ => rfl⟩
    obtain rfl := Option.some.inj (hj.symm.trans hhost')
    exact ZyreNodes.eq_of_mem_answers hmsg
  refine ⟨(hs.toLinked.heard hchan hi hr).post hquiet, fun a b h' ha hb hstopped hjoined hmet => ?_⟩
  have hcoming := hs.coming a b h' ha hb hstopped hjoined hmet
  by_cases hji : a = j ∧ b = i
  · -- the event may be that the other server joins, and it is whispered the port
    obtain ⟨rfl, rfl⟩ := hji
    obtain rfl := Option.some.inj (hj.symm.trans ha)
    have hopen := hs.knows a b (Option.isSome_of_eq_some ha) hb (hs.running b hjoined)
    have hback : ((s.heard b a rest r.1).post a (· = b) (r.2.map .message)).chan a b =
        s.chan a b ++ r.2.map .message := by
      rw [chan_post, if_pos ⟨rfl, decide_eq_true rfl, hmet⟩, chan_heard, if_neg fun hab => hne hab.1.symm]
    have hforth : ((s.heard b a rest r.1).post a (· = b) (r.2.map .message)).chan b a = rest := by
      rw [chan_post, if_neg fun hba => hne hba.1, chan_heard, if_pos ⟨rfl, rfl⟩]
    rw [Coming, hback, hforth]
    show Due entered _ ((s.heard b a rest r.1).knows a b) _ ∨ Due entered _ ((s.heard b a rest r.1).knows b a) _ ∨
      _ ∈ ((s.heard b a rest r.1).mon b).bootstraps
    rw [knows_heard hr, if_pos rfl, knows_heard_of_ne hne]
    rcases hcoming with hdue | hdue | hboot
    · rw [hchan] at hdue
      rcases hdue.cons with ⟨hpeer, rfl⟩ | hdue
      · right; left
        have hwhispers : r.2 = [DhtPeerMon.portMsg host.dhtPort] := by
          rw [hr.whispers]
          exact if_pos hpeer
        rw [hwhispers]
        exact due_concat (hopen.trans hmet) rfl
      · exact .inl hdue
    · exact .inr (.inl (hdue.append _))
    · exact .inr (.inr (bootstraps_heard hr b hboot))
  by_cases hij : a = i ∧ b = j
  · -- the event may be the whisper of the other server's port
    obtain ⟨rfl, rfl⟩ := hij
    obtain rfl := Option.some.inj (hi.symm.trans ha)
    have hback : ((s.heard a b rest r.1).post b (· = a) (r.2.map .message)).chan a b = rest := by
      rw [chan_post, if_neg fun hab => hne hab.1, chan_heard, if_pos ⟨rfl, rfl⟩]
    rw [Coming, hback]
    show Due entered _ ((s.heard a b rest r.1).knows a b) _ ∨ Due entered _ ((s.heard a b rest r.1).knows b a) _ ∨
      _ ∈ ((s.heard a b rest r.1).mon b).bootstraps
    rw [knows_heard hr, if_pos rfl, knows_heard_of_ne hne]
    rcases hcoming with hdue | hdue | hboot
    · left
      obtain ⟨more, hmore⟩ : s.chan b a <+: ((s.heard a b rest r.1).post b (· = a) (r.2.map .message)).chan b a :=
        chan_prefix_heard fun hba => hne hba.1.symm
      rw [← hmore]
      exact hdue.append more
    · rw [hchan] at hdue
      rcases hdue.cons with ⟨hpeer, rfl⟩ | hdue
      · right; right
        rw [mon_heard, if_pos rfl, hr.bootstraps]
        refine List.mem_append_right _ ?_
        show _ ∈ if s.knows b a = true then _ else _
        rw [if_pos hpeer]
        exact List.mem_singleton_self _
      · exact .inr (.inl hdue)
    · exact .inr (.inr (bootstraps_heard hr b hboot))
  · have hknows : ∀ c d, ¬(c = j ∧ d = i) → (s.heard i j rest r.1).knows c d = s.knows c d := by
      intro c d hcd
      by_cases hc : c = j
      · subst hc
        rw [knows_heard hr, if_neg fun hd => hcd ⟨rfl, hd⟩]
      · exact knows_heard_of_ne hc
    have hboot : (s.mon b).bootstraps ⊆ ((s.heard i j rest r.1).mon b).bootstraps := bootstraps_heard hr b
    exact hcoming.mono (hknows a b hji) (hknows b a fun hba => hij hba.symm)
      (chan_prefix_heard fun hba => hji hba.symm) (chan_prefix_heard hij) hboot

/-- Whatever comes, what holds of the network goes on holding. -/
theorem Meshed.deliver (hs : Meshed Z s) (i j : ι) : Meshed Z (s.deliver Z i j) := by
  rw [ZyreNet.deliver]
  cases hchan : s.chan i j with
  | nil => exact hs
  | cons e rest =>
    have he : Z.Sends i e := hs.sends i j e (hchan ▸ List.mem_cons_self)
    cases hj : Z.disco j with
    | none => exact hs.taken hchan fun _ hj' => by rw [hj] at hj'; cases hj'
    | some host =>
      dsimp only
      split_ifs with hdeaf
      · have hstopped : s.stopped j = true := by
          refine hdeaf.resolve_right fun hraised => ?_
          cases (hs.raised j).symm.trans hraised
        exact hs.taken hchan fun _ _ => hstopped
      · cases hi : Z.disco i with
        | none =>
          have hskip : ((s.taken i j rest).mon j).onEvent Z.parse host.dhtPort i e = (s.mon j, []) :=
            ZyreNodes.onEvent_other (hs.valid j) hi he
          have hsame : { s.taken i j rest with mon := Function.update (s.taken i j rest).mon j (s.mon j) } =
              s.taken i j rest := by rw [show s.mon j = (s.taken i j rest).mon j from rfl, Function.update_eq_self]
          rw [hskip]
          dsimp only
          rw [hsame]
          exact (hs.taken hchan fun hi' _ => by rw [hi] at hi'; cases hi').post nofun
        | some h => exact hs.heard hchan hi hj (ZyreNodes.heard_onEvent (hs.valid j) hi he)

theorem Meshed.step (hs : Meshed Z s) (move : ZyreMove ι) : Meshed Z (s.step Z move) := by
  cases move with
  | meet i j => exact hs.meet i j
  | lose i j => exact hs.lose i j
  | join i => exact hs.join i
  | stop i => exact hs.stop i
  | send k l e => exact hs.send k l e
  | deliver i j => exact hs.deliver i j

/-- **The tables of the discovery servers find each other**: in every run no thread of a server is ended by an
exception, and it bootstraps its table with nothing but the addresses of other servers' tables. And of two servers that
are connected and have got all that was sent between them, one that has not stopped has told the other its own, if the
other is in the group. -/
theorem bootstrapped_run (Z : ZyreNodes ι) (moves : List (ZyreMove ι)) :
    let s := run (ZyreNet.step Z) init moves
    (∀ j, (s.mon j).raised = false) ∧
      (∀ j, ∀ a ∈ (s.mon j).bootstraps, ∃ i h, i ≠ j ∧ Z.disco i = some h ∧ a = (h.hostAddress, strInt h.dhtPort)) ∧
      ∀ i j h, Z.disco i = some h → (Z.disco j).isSome → s.met i j = true → s.stopped i = false → s.joined j = true →
        s.chan i j = [] → s.chan j i = [] → (h.hostAddress, strInt h.dhtPort) ∈ (s.mon j).bootstraps := by
  intro s
  have hs : Meshed Z s := inv_run (I := Meshed Z) (fun _ move ht => ht.step move) meshed_init moves
  refine ⟨hs.raised, hs.bootstraps, fun i j h hi hj hmet hstopped hjoined hchan hchan' => ?_⟩
  have hcoming := hs.coming i j h hi hj hstopped hjoined hmet
  rw [Coming, hchan, hchan'] at hcoming
  exact (hcoming.resolve_left not_due_nil).resolve_left not_due_nil

/-! ### Two servers and another program -/

/-- Both formats are read up to their colons. -/
def plainParse : Parse where
  addr t :=
    if lit "tcp://" <+: t then
      let t := t.drop (lit "tcp://").length
      some (t.takeWhile (· ≠ ':'), (t.dropWhile (· ≠ ':')).tail)
    else none
  addr_format ip port _ hcolon _ := by
    have hip : ∀ c ∈ ip, decide (c ≠ ':') = true := fun c hc => decide_eq_true fun he => hcolon (he ▸ hc)
    rw [List.append_assoc, if_pos (List.prefix_append _ _)]
    dsimp only
    rw [List.drop_left, List.takeWhile_append_of_pos hip, List.dropWhile_append_of_pos hip]
    simp
  dhtPort t :=
    let before := lit "riaps_disco" ++ lit "://"
    if before <+: t then some (t.drop before.length) else none
  dhtPort_format port _ := by
    dsimp only
    rw [if_pos (List.prefix_append _ _), List.drop_left]

/-- A server, by the last character of its address. -/
def serverAt (c : Char) (hc : c ≠ ':') : DiscoHost where
  hostAddress := ['i', 'p', c]
  dhtPort := 4222
  zyrePort := ['1']
  hostAddress_ne_nil := nofun
  colon_notMem := by simpa using hc.symm
  zyrePort_ne_nil := nofun

/-- Two servers, and a program that is none and has no header. -/
def twoServers : ZyreNodes (Option Bool) where
  parse := plainParse
  endpoint i := (i.map fun b => encodeUtf8
    (lit "tcp://" ++ (serverAt (if b then 'a' else 'b') (by split <;> decide)).hostAddress ++ ':' :: ['1'])).getD []
  headers i key := i.bind fun b =>
    if key = DhtPeerMon.peerHeaderKey (serverAt (if b then 'a' else 'b') (by split <;> decide)).hostAddress then
      some DhtPeerMon.peerMark
    else none
  disco i := i.map fun b => serverAt (if b then 'a' else 'b') (by split <;> decide)
  endpoint_text i := by
    cases i with
    | none => exact ⟨[], rfl⟩
    | some b => exact ⟨_, rfl⟩
  endpoint_disco i h hi := by
    obtain ⟨b, rfl, rfl⟩ := Option.map_eq_some_iff.mp hi
    rfl
  headers_disco i h hi := by
    obtain ⟨b, rfl, rfl⟩ := Option.map_eq_some_iff.mp hi
    exact if_pos rfl
  headers_other i hi ip := by
    rw [Option.map_eq_none_iff.mp hi]
    nofun

/-- The program whispers too, and each server hears of the other alone. -/
example :
    let s := run (ZyreNet.step twoServers) init
      [.join (some true), .meet (some true) (some false), .meet none (some false), .join (some false),
        .send none (some false) (.message (DhtPeerMon.portMsg 1)), .deliver none (some false),
        .deliver none (some false), .deliver (some true) (some false), .deliver (some true) (some false),
        .deliver (some false) (some true), .deliver (some false) (some true), .deliver (some false) (some true),
        .deliver (some true) (some false)]
    (s.mon (some true)).bootstraps = [(['i', 'p', 'b'], ['4', '2', '2', '2'])] ∧
      (s.mon (some false)).bootstraps = [(['i', 'p', 'a'], ['4', '2', '2', '2'])] := by
  decide +kernel

end ZyreNet

end Riaps.Discovery
