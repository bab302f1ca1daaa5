import Mathlib.Data.Fintype.Basic
import Riaps.Component.Group
import Riaps.Coordination.Mail
import Riaps.Coordination.Replies

/-!
# Messages from the leader

A member's message to the leader comes with the identity of the socket that it
came from, and the leader's component answers to that identity: the group thread
hands the message to its answer port, which passes it to the member that is
connected to it under the identity. A leader that writes to itself finds an
empty identity.

The components keep identities as long as they like. A thread that handles a post
looks at the identity and does not ask whether it is still the leader, and the
identity, `str(id(self))`, is that of a socket in its own process only. So a
message from the leader can come from one that is none, and to another member
than the one that supplied the identity. When each post that is handled finds a
leader and no other member under the identity (`Sure`), neither can happen
(`mail_run`).
-/

namespace Riaps.Coordination

open Riaps.Foundation Riaps.Component

universe u v

/-- The members of a group, and the identity of each one's query port, which its process chooses. -/
structure Correspondents (ι : Type v) (Id : Type u) where
  member : ι → Member Id
  /-- `str(id(self))`. -/
  qryId : ι → Bytes
  qryId_ne (i : ι) : qryId i ≠ []

/-- Where a message comes from: who posted it, the state of its group thread when it handled the post, and
whose message supplied the identity that it is for. -/
structure Post (ι : Type v) where
  poster : ι
  state : MemberState
  supplier : ι
  deriving DecidableEq

/-- A message to the leader on its way, and the servers that the sender's query port is connected to. -/
structure Letter (ι : Type v) where
  sender : ι
  servers : List (String × ℕ)
  msg : LeaderMsg

/-- A member: its group thread, what waits on the socket between the thread and the component, and what the
component knows. Identities are kept with the member that supplied them. -/
structure Correspondent (ι : Type v) (Id : Type u) where
  thread : GroupThread Id
  /-- The component's requests, with the supplier of the identity. -/
  requests : List (CompReq × ι)
  /-- What waits for the component. -/
  inbox : List (CompMsg Id × Post ι)
  /-- `Group.identity`. -/
  identity : Option (Bytes × ι)
  /-- The identities that came with messages to the leader. -/
  known : List (Bytes × ι)
  /-- The messages that `handleMessageFromLeader` was called for. -/
  received : List (Post ι)

/-- The members, and what is on its way between them. -/
structure Mailing (ι : Type v) (Id : Type u) where
  node : ι → Correspondent ι Id
  toLeader : List (Letter ι)
  /-- What answer ports have sent, and to whom. -/
  toMember : List (ι × Bytes × Post ι)

variable {ι : Type v} {Id : Type u}

/-! ### The component -/

namespace Correspondent

/-- The component takes a frame: of a message to the leader it keeps the identity, and a message from the leader
is handled. -/
def take (m : CompMsg Id) (post : Post ι) (nd : Correspondent ι Id) : Correspondent ι Id :=
  match m with
  | .mtl _ identity =>
    { nd with identity := some (identity, post.poster), known := nd.known ++ [(identity, post.poster)] }
  | .mfl _ => { nd with received := nd.received ++ [post] }
  | _ => nd

/-- `sendToMember`, with the identity of one of the messages to the leader or, if none is given, the one that is
kept. -/
def sendToMember (payload : Bytes) (given : Option ℕ) (nd : Correspondent ι Id) : Correspondent ι Id :=
  if nd.thread.leader = none then nd
  else
    match (given.bind fun n => nd.known[n]?).or nd.identity with
    | some (identity, supplier) =>
      { nd with identity := some (identity, supplier), requests := nd.requests ++ [(.mfl payload identity, supplier)] }
    -- `assert(self.identity != None)`
    | none => nd

/-- What the component keeps of a frame is what `handleMessage` keeps. -/
theorem identity_take {Obj : Type*} (isTimed : Bool) (f : Frame Id) (post : Post ι) (nd : Correspondent ι Id)
    (s : Component.Group Id Obj) (h : s.identity = nd.identity.map Prod.fst) :
    (s.handleMessage isTimed f).identity = (nd.take f.msg post).identity.map Prod.fst := by
  have hkeep (t : Component.Group Id Obj) : (t.keepTimes isTimed f).identity = t.identity := by
    unfold Component.Group.keepTimes
    split_ifs <;> rfl
  unfold Component.Group.handleMessage
  cases f.msg with
  | rcm m =>
    cases m with
    | rfv rfv =>
      simp only
      cases rfv.subject <;> exact (hkeep s).trans h
    | rtc rtc => exact (hkeep s).trans h
    | ann ann => exact (hkeep s).trans h
  | ann m => cases m <;> exact (hkeep s).trans h
  | msg payload => exact (hkeep _).trans h
  | mfl payload => exact (hkeep _).trans h
  | mtl payload identity => exact hkeep _
  | _ => exact h

/-- The handler for messages from the leader is called for these. -/
theorem received_take [DecidableEq Id] (m : CompMsg Id) (post : Post ι) (nd : Correspondent ι Id) :
    (nd.take m post).received =
      nd.received ++ if (Component.Group.handlerOf m).map Prod.fst = some .messageFromLeader then [post] else [] := by
  cases m with
  | mfl payload => rfl
  | rcm m =>
    cases m with
    | rfv rfv =>
      cases hsubject : rfv.subject <;> simp [take, Component.Group.handlerOf, hsubject]
    | _ => simp [take, Component.Group.handlerOf]
  | ann m => cases m <;> simp [take, Component.Group.handlerOf]
  | _ => simp [take, Component.Group.handlerOf]

/-- What is posted is what `send_port` posts. -/
theorem sendToMember_eq (payload : Bytes) (given : Option ℕ) {nd : Correspondent ι Id} (hl : nd.thread.leader ≠ none) :
    let p := Posting.mfl payload ((given.bind fun n => nd.known[n]?).map Prod.fst)
    let kept := Component.Group.Posting.keep (nd.identity.map Prod.fst) p
    (nd.sendToMember payload given).identity.map Prod.fst = kept ∧
      (nd.sendToMember payload given).requests.map Prod.fst =
        nd.requests.map Prod.fst ++ (Component.Group.Posting.request kept p).toList := by
  unfold sendToMember
  rw [if_neg hl]
  cases given.bind fun n => nd.known[n]? with
  | some x => simp [Component.Group.Posting.keep, Component.Group.Posting.request]
  | none => cases hid : nd.identity <;> simp [Component.Group.Posting.keep, Component.Group.Posting.request, hid]

end Correspondent

/-! ### The network -/

/-- What a thread sends to its component. -/
def toComp (l : List (Sent Id)) : List (CompMsg Id) :=
  l.filterMap fun
    | .comp m => some m
    | _ => none

/-- The messages to the leader among what member `i` sends. -/
def lettersOf (i : ι) (servers : List (String × ℕ)) (l : List (Sent Id)) : List (Letter ι) :=
  l.filterMap fun
    | .qry m => some ⟨i, servers, m⟩
    | _ => none

/-- The messages to a member among what is sent, when the answer port finds `peer`. -/
def answersOf (peer : Option ι) (post : Post ι) (l : List (Sent Id)) : List (ι × Bytes × Post ι) :=
  l.filterMap fun
    | .ans _ payload => peer.map fun j => (j, payload, post)
    | _ => none

/-- Calls that the network and the component's posts make. -/
def Call.isMailed {g : Member Id} : Call Id g → Bool
  | .comp _ _ req => req.isPosted
  | .forLeader _ _ _ _ | .forMember _ _ => true
  | .wake _ | .timeout _ | .net _ _ => false

/-- The identity that a request is for. -/
def CompReq.identity : CompReq → Bytes
  | .mfl _ identity => identity
  | _ => []

/-- What happens in the group. -/
inductive MailEvent (G : Correspondents ι Id) where
  /-- The thread of a member makes a call that is not one of the network below: it wakes up, waits in vain, or
  hears any message of the group. -/
  | own (i : ι) (c : { c : Call Id (G.member i) // c.isMailed = false })
  /-- A component calls `sendToMember`. -/
  | sendToMember (i : ι) (payload : Bytes) (given : Option ℕ)
  /-- A component posts another request. -/
  | post (i : ι) (req : CompReq)
  /-- A thread handles the component's next request; its answer port, if it is used, picks `peer`. -/
  | handle (i : ι) (e : Env (G.member i).toGroupParams) (err : Option ℕ) (peer : Option ι)
  /-- The answer port of `j` receives the letter at position `n`. -/
  | recvFromMember (n : ℕ) (j : ι) (e : Env (G.member j).toGroupParams)
  /-- The message to a member at position `n` is received. -/
  | recvFromLeader (n : ℕ) (e : ∀ i, Env (G.member i).toGroupParams)
  /-- A component takes the next frame. -/
  | take (i : ι)

namespace Mailing

variable [DecidableEq ι] [DecidableEq Id] (G : Correspondents ι Id)

/-- The group when the threads start. -/
def start (e : ∀ i, Env (G.member i).toGroupParams) : Mailing ι Id where
  node i := ⟨GroupThread.start (G.member i) (e i), [], [], none, [], []⟩
  toLeader := []
  toMember := []

/-- One of these servers is the answer port of `j`. -/
def Serves (N : Mailing ι Id) (servers : List (String × ℕ)) (j : ι) : Prop :=
  ∃ server ∈ servers, server.1 = compressed (G.member j).host ∧ (N.node j).thread.ansPort.portNum = some server.2

instance (N : Mailing ι Id) (servers : List (String × ℕ)) (j : ι) : Decidable (N.Serves G servers j) := by
  unfold Serves
  infer_instance

/-- Member `j` is connected to the answer port of `i`, under this identity. -/
def Reaches (N : Mailing ι Id) (i : ι) (identity : Bytes) (j : ι) : Prop :=
  G.qryId j = identity ∧ N.Serves G (N.node j).thread.qryPort.conns i

instance (N : Mailing ι Id) (i : ι) (identity : Bytes) (j : ι) : Decidable (N.Reaches G i identity j) := by
  unfold Reaches
  infer_instance

/-- A member changes. -/
def setNode (i : ι) (nd : Correspondent ι Id) (N : Mailing ι Id) : Mailing ι Id :=
  { N with node := Function.update N.node i nd }

/-- The thread of `i` makes a call. What it sends to its component on account of `post`, and to member `peer`,
goes on its way. -/
def act (i : ι) (c : Call Id (G.member i)) (post : Post ι) (peer : Option ι) (N : Mailing ι Id) : Mailing ι Id :=
  let nd := N.node i
  let sends := nd.thread.sends (G.member i) c
  { node := Function.update N.node i
      { nd with
        thread := nd.thread.call (G.member i) c
        inbox := nd.inbox ++ (toComp sends).map fun m => (m, post) }
    toLeader := N.toLeader ++ lettersOf i nd.thread.qryPort.conns sends
    toMember := N.toMember ++ answersOf peer post sends }

/-- One event; nothing happens when there is nothing for it. -/
def step (N : Mailing ι Id) : MailEvent G → Mailing ι Id
  | .own i c => N.act G i c.1 ⟨i, (N.node i).thread.state, i⟩ none
  | .sendToMember i payload given => N.setNode i ((N.node i).sendToMember payload given)
  | .post i req =>
    match req with
    | .mfl _ _ => N
    | req => N.setNode i { N.node i with requests := (N.node i).requests ++ [(req, i)] }
  | .handle i e err peer =>
    match (N.node i).requests with
    | [] => N
    | (req, supplier) :: requests =>
      (N.setNode i { N.node i with requests := requests }).act G i (.comp e err req)
        ⟨i, (N.node i).thread.state, supplier⟩ (peer.filter fun j => N.Reaches G i req.identity j)
  | .recvFromMember n j e =>
    match N.toLeader[n]? with
    | some l =>
      if N.Serves G l.servers j then
        { N with toLeader := N.toLeader.eraseIdx n }.act G j
          (.forLeader e (G.member l.sender).ownId (G.qryId l.sender) l.msg)
          ⟨l.sender, (N.node j).thread.state, l.sender⟩ none
      else N
    | none => N
  | .recvFromLeader n e =>
    match N.toMember[n]? with
    | some (j, payload, post) =>
      { N with toMember := N.toMember.eraseIdx n }.act G j (.forMember (e j) payload) post none
    | none => N
  | .take i =>
    match (N.node i).inbox with
    | [] => N
    | (m, post) :: inbox => N.setNode i ({ N.node i with inbox := inbox }.take m post)

/-! ### Posts that find a leader and one member -/

/-- A message from the leader is in order at `j`: its poster was the leader, and the identity that it was for is
from `j`. -/
def InOrder (j : ι) (post : Post ι) : Prop := post.state = .leader ∧ post.supplier = j

instance (j : ι) (post : Post ι) : Decidable (InOrder j post) := by
  unfold InOrder
  infer_instance

/-- Every message from the leader that a component has received is in order. -/
def Delivered (N : Mailing ι Id) : Prop := ∀ j, ∀ post ∈ (N.node j).received, InOrder j post

/-- A post for an identity is sure to come to `supplier`: it finds a leader, and no other member is connected under
the identity; or no member is, and it is not for the poster itself. -/
def SurePost (N : Mailing ι Id) (i : ι) (identity : Bytes) (supplier : ι) : Prop :=
  (N.node i).thread.state = .leader ∧ (∀ j, N.Reaches G i identity j → j = supplier) ∨
    identity ≠ [] ∧ ∀ j, ¬ N.Reaches G i identity j

instance [Fintype ι] (N : Mailing ι Id) (i : ι) (identity : Bytes) (supplier : ι) :
    Decidable (N.SurePost G i identity supplier) := by
  unfold SurePost
  infer_instance

/-- A request is sure if, when it is one for a member and the thread knows of a leader, the post is. -/
def SureRequest (N : Mailing ι Id) (i : ι) (x : CompReq × ι) : Prop :=
  match x.1 with
  | .mfl _ identity => (N.node i).thread.leader ≠ none → N.SurePost G i identity x.2
  | _ => True

instance [Fintype ι] (N : Mailing ι Id) (i : ι) (x : CompReq × ι) : Decidable (N.SureRequest G i x) := by
  unfold SureRequest
  split <;> infer_instance

/-- When the event is that a thread handles a request, the request is sure. -/
def Sure (N : Mailing ι Id) : MailEvent G → Prop
  | .handle i _ _ _ => ∀ x ∈ (N.node i).requests.head?, N.SureRequest G i x
  | _ => True

instance [Fintype ι] (N : Mailing ι Id) (ev : MailEvent G) : Decidable (N.Sure G ev) := by
  unfold Sure
  split <;> infer_instance

/-! ### The invariant -/

/-- An identity that member `i` has from `supplier`: the empty one is its own. -/
def Supplied (i : ι) (identity : Bytes) (supplier : ι) : Prop := identity = [] → supplier = i

/-- A frame for the component of member `i` that is in order. -/
def FrameOk (i : ι) (m : CompMsg Id) (post : Post ι) : Prop :=
  match m with
  | .mfl _ => InOrder i post
  | .mtl _ identity => Supplied i identity post.poster
  | _ => True

/-- All that member `i` has is in order. -/
structure NodeInv (i : ι) (nd : Correspondent ι Id) : Prop where
  requests : ∀ payload identity supplier, (.mfl payload identity, supplier) ∈ nd.requests → Supplied i identity supplier
  inbox : ∀ x ∈ nd.inbox, FrameOk i x.1 x.2
  identity : ∀ x, nd.identity = some x → Supplied i x.1 x.2
  known : ∀ x ∈ nd.known, Supplied i x.1 x.2
  received : ∀ post ∈ nd.received, InOrder i post

/-- All that members have is in order, and so is what is on its way to them. -/
structure MailInv (N : Mailing ι Id) : Prop where
  node : ∀ i, NodeInv i (N.node i)
  toMember : ∀ x ∈ N.toMember, InOrder x.1 x.2.2

section Nodes

omit [DecidableEq ι] [DecidableEq Id]

variable {i : ι} {nd : Correspondent ι Id}

theorem NodeInv.take (h : NodeInv i nd) {m : CompMsg Id} {post : Post ι} (hm : FrameOk i m post) :
    NodeInv i (nd.take m post) := by
  unfold Correspondent.take
  split
  · refine ⟨h.requests, h.inbox, fun x hx => ?_, fun x hx => ?_, h.received⟩
    · obtain rfl := Option.some.inj hx
      exact hm
    · rcases List.mem_append.mp hx with hx | hx
      · exact h.known x hx
      · obtain rfl := List.mem_singleton.mp hx
        exact hm
  · refine ⟨h.requests, h.inbox, h.identity, h.known, fun p hp => ?_⟩
    rcases List.mem_append.mp hp with hp | hp
    · exact h.received p hp
    · obtain rfl := List.mem_singleton.mp hp
      exact hm
  · exact h

theorem NodeInv.sendToMember (h : NodeInv i nd) (payload : Bytes) (given : Option ℕ) :
    NodeInv i (nd.sendToMember payload given) := by
  unfold Correspondent.sendToMember
  split_ifs
  · exact h
  · split
    · rename_i identity supplier heq
      have hsupplied : Supplied i identity supplier := by
        rcases Option.or_eq_some_iff.mp heq with hgiven | ⟨-, hkept⟩
        · obtain ⟨n, -, hn⟩ := Option.bind_eq_some_iff.mp hgiven
          exact h.known _ (List.mem_of_getElem? hn)
        · exact h.identity _ hkept
      refine ⟨fun payload' identity' supplier' hmem => ?_, h.inbox, fun x hx => ?_, h.known, h.received⟩
      · rcases List.mem_append.mp hmem with hmem | hmem
        · exact h.requests payload' identity' supplier' hmem
        · obtain ⟨hreq, rfl⟩ := Prod.mk.inj (List.mem_singleton.mp hmem)
          obtain ⟨-, rfl⟩ := CompReq.mfl.inj hreq
          exact hsupplied
      · obtain rfl := Option.some.inj hx
        exact hsupplied
    · exact h

end Nodes

variable {G} {N : Mailing ι Id}

omit [DecidableEq Id] in
theorem MailInv.setNode (h : MailInv N) {i : ι} {nd : Correspondent ι Id} (hnd : NodeInv i nd) :
    MailInv (N.setNode i nd) := by
  refine ⟨fun j => ?_, h.toMember⟩
  by_cases hj : j = i
  · subst hj
    simpa [Mailing.setNode] using hnd
  · simpa [Mailing.setNode, hj] using h.node j

/-- A call that sends nothing but what is in order. -/
theorem MailInv.act (h : MailInv N) {i : ι} {c : Call Id (G.member i)} {post : Post ι} {peer : Option ι}
    (hcomp : ∀ m, .comp m ∈ (N.node i).thread.sends (G.member i) c → FrameOk i m post)
    (hans : ∀ identity payload, .ans identity payload ∈ (N.node i).thread.sends (G.member i) c →
      ∀ j, peer = some j → InOrder j post) : MailInv (N.act G i c post peer) := by
  constructor
  · intro j
    by_cases hj : j = i
    · subst hj
      have hnd := h.node j
      simp only [Mailing.act, Function.update_self]
      refine ⟨hnd.requests, fun x hx => ?_, hnd.identity, hnd.known, hnd.received⟩
      rcases List.mem_append.mp hx with hx | hx
      · exact hnd.inbox x hx
      · obtain ⟨m, hm, rfl⟩ := List.mem_map.mp hx
        obtain ⟨y, hy, hym⟩ := List.mem_filterMap.mp hm
        cases y with
        | comp m' =>
          obtain rfl := Option.some.inj hym
          exact hcomp m' hy
        | _ => cases hym
    · simpa [Mailing.act, hj] using h.node j
  · intro x hx
    rcases List.mem_append.mp hx with hx | hx
    · exact h.toMember x hx
    · obtain ⟨y, hy, hyx⟩ := List.mem_filterMap.mp hx
      cases y with
      | ans identity payload =>
        obtain ⟨j, hj, rfl⟩ := Option.map_eq_some_iff.mp hyx
        exact hans identity payload hy j hj
      | _ => cases hyx

theorem MailInv.own (h : MailInv N) (i : ι) (c : { c : Call Id (G.member i) // c.isMailed = false }) :
    MailInv (N.step G (.own i c)) := by
  obtain ⟨c, hc⟩ := c
  refine h.act (fun m hm => ?_) fun identity payload hm => ?_
  · cases m with
    | mfl payload =>
      rcases GroupThread.mfl_of_sends hm with ⟨e, err, rfl, -⟩ | ⟨e, rfl⟩ <;> cases hc
    | mtl payload identity =>
      rcases GroupThread.mtl_of_sends hm with ⟨e, err, rfl⟩ | ⟨e, sender, rfl⟩ <;> cases hc
    | _ => trivial
  · obtain ⟨e, err, rfl, -⟩ := GroupThread.ans_of_sends hm
    cases hc

omit [DecidableEq ι] [DecidableEq Id] in
/-- A request that is for no identity. -/
theorem NodeInv.post {i : ι} {nd : Correspondent ι Id} (h : NodeInv i nd) {req : CompReq}
    (hreq : ∀ payload identity, req ≠ .mfl payload identity) :
    NodeInv i { nd with requests := nd.requests ++ [(req, i)] } := by
  refine ⟨fun payload identity supplier hmem => ?_, h.inbox, h.identity, h.known, h.received⟩
  rcases List.mem_append.mp hmem with hmem | hmem
  · exact h.requests payload identity supplier hmem
  · exact absurd (Prod.mk.inj (List.mem_singleton.mp hmem)).1.symm (hreq payload identity)

theorem MailInv.handle (h : MailInv N) {i : ι} {e : Env (G.member i).toGroupParams} {err : Option ℕ} {peer : Option ι}
    (hsure : N.Sure G (.handle i e err peer)) : MailInv (N.step G (.handle i e err peer)) := by
  simp only [Mailing.step]
  cases hreqs : (N.node i).requests with
  | nil => exact h
  | cons head requests =>
    obtain ⟨req, supplier⟩ := head
    have hnd := h.node i
    have hrest : NodeInv i { N.node i with requests := requests } :=
      ⟨fun payload identity k hmem => hnd.requests payload identity k (hreqs ▸ List.mem_cons_of_mem _ hmem),
        hnd.inbox, hnd.identity, hnd.known, hnd.received⟩
    have hthread : ((N.setNode i { N.node i with requests := requests }).node i).thread = (N.node i).thread := by
      simp [Mailing.setNode]
    have hpost (payload identity : Bytes) (hreq : req = .mfl payload identity) (hl : (N.node i).thread.leader ≠ none) :
        N.SurePost G i identity supplier := by
      subst hreq
      have hrequest : N.SureRequest G i (.mfl payload identity, supplier) := hsure _ (by rw [hreqs]; rfl)
      exact hrequest hl
    refine (h.setNode hrest).act (fun m hm => ?_) fun identity payload hm j hj => ?_
    · rw [hthread] at hm
      cases m with
      | mfl payload =>
        rcases GroupThread.mfl_of_sends hm with ⟨e', err', hc, hl⟩ | ⟨e', hc⟩
        · obtain ⟨-, -, rfl⟩ := Call.comp.inj hc
          -- a message for oneself: the identity is empty
          rcases hpost payload [] rfl hl with ⟨hstate, -⟩ | ⟨hne, -⟩
          · exact ⟨hstate, hnd.requests payload [] supplier (hreqs ▸ List.mem_cons_self) rfl⟩
          · exact absurd rfl hne
        · cases hc
      | mtl payload identity =>
        rcases GroupThread.mtl_of_sends hm with ⟨e', err', hc⟩ | ⟨e', sender, hc⟩
        · exact fun _ => rfl
        · cases hc
      | _ => trivial
    · rw [hthread] at hm
      obtain ⟨e', err', hc, hl⟩ := GroupThread.ans_of_sends hm
      obtain ⟨-, -, rfl⟩ := Call.comp.inj hc
      obtain ⟨rfl, hreach⟩ := Option.filter_eq_some_iff.mp hj
      have hj' : N.Reaches G i identity j := of_decide_eq_true hreach
      rcases hpost payload identity rfl hl with ⟨hstate, hone⟩ | ⟨-, hnone⟩
      · exact ⟨hstate, (hone j hj').symm⟩
      · exact absurd hj' (hnone j)

theorem MailInv.recvFromMember (h : MailInv N) (n : ℕ) (j : ι) (e : Env (G.member j).toGroupParams) :
    MailInv (N.step G (.recvFromMember n j e)) := by
  simp only [Mailing.step]
  cases N.toLeader[n]? with
  | none => exact h
  | some l =>
    simp only
    split_ifs
    · have hcut : MailInv { N with toLeader := N.toLeader.eraseIdx n } := ⟨h.node, h.toMember⟩
      refine hcut.act (fun m hm => ?_) fun identity payload hm => ?_
      · cases m with
        | mfl payload =>
          rcases GroupThread.mfl_of_sends hm with ⟨e', err', hc, -⟩ | ⟨e', hc⟩ <;> cases hc
        | mtl payload identity =>
          rcases GroupThread.mtl_of_sends hm with ⟨e', err', hc⟩ | ⟨e', sender, hc⟩
          · cases hc
          · obtain ⟨-, -, rfl, -⟩ := Call.forLeader.inj hc
            exact fun hempty => absurd hempty (G.qryId_ne l.sender)
        | _ => trivial
      · obtain ⟨e', err', hc, -⟩ := GroupThread.ans_of_sends hm
        cases hc
    · exact h

theorem MailInv.recvFromLeader (h : MailInv N) (n : ℕ) (e : ∀ i, Env (G.member i).toGroupParams) :
    MailInv (N.step G (.recvFromLeader n e)) := by
  simp only [Mailing.step]
  cases hmail : N.toMember[n]? with
  | none => exact h
  | some x =>
    obtain ⟨j, payload, post⟩ := x
    have hcut : MailInv { N with toMember := N.toMember.eraseIdx n } :=
      ⟨h.node, fun x hx => h.toMember x (List.mem_of_mem_eraseIdx hx)⟩
    refine hcut.act (fun m hm => ?_) fun identity payload' hm => ?_
    · cases m with
      | mfl payload' => exact h.toMember _ (List.mem_of_getElem? hmail)
      | mtl payload' identity =>
        rcases GroupThread.mtl_of_sends hm with ⟨e', err', hc⟩ | ⟨e', sender, hc⟩ <;> cases hc
      | _ => trivial
    · obtain ⟨e', err', hc, -⟩ := GroupThread.ans_of_sends hm
      cases hc

theorem MailInv.takeFrame (h : MailInv N) (i : ι) : MailInv (N.step G (.take i)) := by
  simp only [Mailing.step]
  cases hbox : (N.node i).inbox with
  | nil => exact h
  | cons x inbox =>
    obtain ⟨m, post⟩ := x
    have hnd := h.node i
    have hrest : NodeInv i { N.node i with inbox := inbox } :=
      ⟨hnd.requests, fun x hx => hnd.inbox x (hbox ▸ List.mem_cons_of_mem _ hx), hnd.identity, hnd.known, hnd.received⟩
    exact h.setNode (hrest.take (hnd.inbox (m, post) (hbox ▸ List.mem_cons_self)))

/-- Each event keeps the invariant, if posts are sure. -/
theorem MailInv.step (h : MailInv N) {ev : MailEvent G} (hsure : N.Sure G ev) : MailInv (N.step G ev) := by
  cases ev with
  | own i c => exact h.own i c
  | sendToMember i payload given => exact h.setNode ((h.node i).sendToMember payload given)
  | post i req =>
    cases req with
    | mfl payload identity => exact h
    | _ => exact h.setNode ((h.node i).post fun _ _ hreq => by cases hreq)
  | handle i e err peer => exact h.handle hsure
  | recvFromMember n j e => exact h.recvFromMember n j e
  | recvFromLeader n e => exact h.recvFromLeader n e
  | take i => exact h.takeFrame i

omit [DecidableEq ι] [DecidableEq Id] in
theorem mailInv_start (e : ∀ i, Env (G.member i).toGroupParams) : MailInv (start G e) where
  node i := by constructor <;> simp [start]
  toMember := by simp [start]

/-- **Messages from the leader**, in every run whose posts are sure: those that a component receives were posted by
the leader, for an identity that came from that component. -/
theorem mail_run (G : Correspondents ι Id) (e : ∀ i, Env (G.member i).toGroupParams) (evs : List (MailEvent G))
    (h : AllSteps (step G) (Sure G) (start G e) evs) : Always (step G) Delivered (start G e) evs := by
  have hinv := h.always (I := MailInv) (fun _ _ hN hsure => hN.step hsure) (mailInv_start e)
  exact fun pre hpre j post hpost => ((hinv pre hpre).node j).received post hpost

/-! ### Three members -/

/-- Members 0, 1 and 2, on one host; the identities of the query ports of 1 and 2 are equal. -/
def trio : Correspondents (Fin 3) ℕ where
  member i := Member.standard i
  qryId i := if i = 0 then [48] else [49]
  qryId_ne i := by split_ifs <;> simp

/-- Member 0 is elected in term 1. -/
def election : List (MailEvent trio) :=
  [.own 0 ⟨.net (.least _ 101) (.heartbeat 0), rfl⟩, .own 0 ⟨.net (.least _ 101) (.heartbeat 1), rfl⟩,
    .own 0 ⟨.timeout (.least _ 103), rfl⟩, .own 0 ⟨.net (.least _ 103) (.rspvote 1 0 true 1), rfl⟩]

/-- Member `i` hears that member 0 is the leader. -/
def follow (i : Fin 3) : MailEvent trio := .own i ⟨.net (.least _ 104) (.authority 1 0 0x7f000001 49152), rfl⟩

/-- The component of member `i` takes `n` frames. -/
def takes (i : Fin 3) (n : ℕ) : List (MailEvent trio) := List.replicate n (.take i)

/-- The component of member 1 writes to the leader, and the leader's component answers. -/
def exchange : List (MailEvent trio) :=
  [follow 1, .post 1 (.mtl [1]), .handle 1 (.least _ 104) none none, .recvFromMember 0 0 (.least _ 104)] ++ takes 0 4 ++
    [.sendToMember 0 [2] none, .handle 0 (.least _ 104) none (some 1), .recvFromLeader 0 fun _ => .least _ 104] ++
      takes 1 3

/-- Member 1 gets the answer. -/
theorem delivered_exchange :
    Always (step trio) Delivered (start trio fun _ => .least _ 100) (election ++ exchange) :=
  mail_run trio _ _ (by decide +kernel)

/-- Member 2 asks for votes, and member 1 votes for it and leaves member 0; then member 2 hears that member 0 is the
leader. -/
def wavering : List (MailEvent trio) :=
  [.own 2 ⟨.net (.least _ 101) (.heartbeat 1), rfl⟩, .own 2 ⟨.net (.least _ 101) (.heartbeat 2), rfl⟩,
    .own 2 ⟨.timeout (.least _ 104), rfl⟩, .own 1 ⟨.net (.least _ 105) (.reqvote 1 2), rfl⟩, follow 2]

/-- A member that has lost the leadership to member 1 writes to itself, by the identity that it has kept; and what the
leader sends to member 1, which has left it, comes to member 2. -/
theorem misdelivered :
    ¬ Always (step trio) Delivered (start trio fun _ => .least _ 100)
        (election ++ [.post 0 (.mtl [1]), .handle 0 (.least _ 104) none none] ++ takes 0 5 ++
          [.own 0 ⟨.net (.least _ 104) (.authority 1 1 0x7f000001 50000), rfl⟩, .sendToMember 0 [2] none,
            .handle 0 (.least _ 104) none none] ++ takes 0 3) ∧
      ¬ Always (step trio) Delivered (start trio fun _ => .least _ 100)
        (election ++ exchange.take 8 ++ wavering ++
          [.sendToMember 0 [2] none, .handle 0 (.least _ 105) none (some 2), .recvFromLeader 0 fun _ => .least _ 105] ++
            takes 2 4) := by
  constructor
  · intro h
    have horder := h.last 0 ⟨0, .follower, 0⟩ (by decide +kernel)
    cases horder.1
  · intro h
    have horder := h.last 2 ⟨0, .leader, 1⟩ (by decide +kernel)
    cases horder.2

end Mailing

end Riaps.Coordination
