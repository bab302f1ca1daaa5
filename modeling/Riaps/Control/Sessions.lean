import Mathlib.Logic.Function.Basic
import Riaps.Foundation.Runs
import Riaps.Control.Controller

/-!
# Nodes that log in again

A node logs in on a connection, which makes a client object under the node's name
and starts a thread that enters it half a second later. When the connection ends,
or does not answer a ping, the client is closed and what is on record under its
name is removed, whichever client that is. A login closes and removes the client
that is on record; one that waits to be entered is not.

The state here has every client that was made, by number, and each step of the
source is one: a login, the entry of a client with the query that follows it, the
end of a connection, a ping, the drop of a client that did not answer. As long as
what is removed or entered under a name is the node's latest client, or that one
is entered later (`Orderly`), the record is right (`tidy_run`).
-/

namespace Riaps.Control

open Riaps.Foundation

/-- A `ServiceClient`. -/
structure ServiceClient (Name Conn : Type) where
  name : Name
  /-- The connection of its `parent`. -/
  conn : Conn
  stale : Bool
  /-- Its connection has ended, or it has been logged out or dropped. -/
  gone : Bool
  deriving DecidableEq

/-- The controller and its service. -/
structure Sessions (Name Conn App Actor : Type) where
  ctrl : Controller Name ℕ App Actor
  /-- The clients that were made so far; a client is its position. -/
  clients : List (ServiceClient Name Conn)
  /-- `self.client` in the service of each connection. -/
  current : Conn → Option ℕ
  /-- The connections that have ended. -/
  ended : List Conn
  /-- The connections whose threads wait to enter a client. -/
  adding : List Conn
  /-- The clients in the `drops` of `pingClients`. -/
  drops : List ℕ
  /-- The latest client that each node has logged in with. -/
  latest : Name → Option ℕ
  /-- A step has raised an exception. -/
  raised : Bool

/-- What happens to the record of the clients. -/
inductive SessionEvent (Name Conn App : Type) where
  /-- `exposed_login`. -/
  | login (conn : Conn) (name : Name)
  /-- The thread at position `n` calls `Controller.addClient`; whether the query of the client succeeds, and what it
  runs. -/
  | addClient (n : ℕ) (ok : Bool) (apps : List App)
  /-- `on_disconnect`. -/
  | disconnect (conn : Conn)
  /-- `exposed_logout` of the client of a connection. -/
  | logout (conn : Conn)
  /-- The loop of `pingClients`, where these clients do not answer. -/
  | ping (fails : List ℕ)
  /-- `dropClient` of the client at position `n` of `drops`. -/
  | drop (n : ℕ)

variable {Name Conn App Actor : Type} [DecidableEq Name] [DecidableEq Conn] [DecidableEq App]

namespace Sessions

/-- No node has logged in. -/
def start : Sessions Name Conn App Actor :=
  ⟨Controller.init, [], fun _ => none, [], [], [], fun _ => none, false⟩

/-- `ServiceClient.close`. -/
def close (i : ℕ) (s : Sessions Name Conn App Actor) : Sessions Name Conn App Actor :=
  { s with clients := s.clients.modify i fun c => { c with stale := true } }

/-- `exposed_logout`, and `dropClient`: close the client and delete what is on record under its name. -/
def retire (i : ℕ) (s : Sessions Name Conn App Actor) : Sessions Name Conn App Actor :=
  match s.clients[i]? with
  | some c =>
    { s with
      clients := s.clients.modify i fun c => { c with stale := true, gone := true }
      ctrl := s.ctrl.delClient c.name }
  | none => s

/-- The end of `exposed_login`: a new client, and the thread that will enter it. -/
def enter (conn : Conn) (name : Name) (s : Sessions Name Conn App Actor) : Sessions Name Conn App Actor :=
  { s with
    clients := s.clients ++ [⟨name, conn, false, false⟩]
    current := Function.update s.current conn (some s.clients.length)
    adding := s.adding ++ [conn]
    latest := Function.update s.latest name (some s.clients.length) }

/-- The client of a connection is open: `self.client and not self.client.stale`. -/
def isOpen (conn : Conn) (s : Sessions Name Conn App Actor) : Bool :=
  match (s.current conn).bind fun i => s.clients[i]? with
  | some c => !c.stale
  | none => false

/-- `exposed_login`. -/
def login (conn : Conn) (name : Name) (s : Sessions Name Conn App Actor) : Sessions Name Conn App Actor :=
  if s.isOpen conn ∨ name ∈ s.ctrl.clientMap then
    match s.ctrl.clientMap.get? name with
    -- `oldClient` is `None`, and `oldClient.close()` an `AttributeError`
    | none => { s with raised := true }
    | some old =>
      let s := s.close old
      { s with ctrl := s.ctrl.delClient name }.enter conn name
  else s.enter conn name

/-- `Controller.addClient` of the client that connection `conn` has now. The query of a client that was closed in the
meantime gives nothing, and its value raises an exception, too. -/
def addClient (conn : Conn) (ok : Bool) (apps : List App) (s : Sessions Name Conn App Actor) :
    Sessions Name Conn App Actor :=
  match s.current conn with
  | some i =>
    match s.clients[i]? with
    | some c =>
      let s := { s with ctrl := s.ctrl.enterClient c.name i }
      if c.stale = false ∧ ok then { s with ctrl := s.ctrl.addRecoveredAppInfo apps i } else s.retire i
    | none => s
  | none => s

/-- The clients of a connection are gone. -/
def hangUp (conn : Conn) (s : Sessions Name Conn App Actor) : Sessions Name Conn App Actor :=
  { s with
    clients := s.clients.map fun c => if c.conn = conn then { c with gone := true } else c
    ended := s.ended ++ [conn] }

/-- The client of a connection is retired, if there is one. -/
def retireCurrent (conn : Conn) (s : Sessions Name Conn App Actor) : Sessions Name Conn App Actor :=
  match s.current conn with
  | some i => s.retire i
  | none => s

/-- One step; a connection that has ended makes no calls. -/
def step (s : Sessions Name Conn App Actor) : SessionEvent Name Conn App → Sessions Name Conn App Actor
  | .login conn name => if conn ∈ s.ended then s else s.login conn name
  | .addClient n ok apps =>
    match s.adding[n]? with
    | some conn => { s with adding := s.adding.eraseIdx n }.addClient conn ok apps
    | none => s
  | .disconnect conn => if conn ∈ s.ended then s else (s.retireCurrent conn).hangUp conn
  | .logout conn => if conn ∈ s.ended then s else s.retireCurrent conn
  | .ping fails =>
    let fails := fails.filter fun i => i ∈ s.ctrl.clientMap.items.map Prod.snd ∧ (s.clients[i]?).any fun c => !c.stale
    { s with drops := s.drops ++ fails }
  | .drop n =>
    match s.drops[n]? with
    | some i => { s with drops := s.drops.eraseIdx n }.retire i
    | none => s

/-! ### Orderly steps -/

/-- No step has raised an exception, no client on record is closed and, when none waits to be entered, the client on
record under a name is the node's latest one unless it is gone. -/
structure Tidy (s : Sessions Name Conn App Actor) : Prop where
  quiet : s.raised = false
  live : ∀ (name : Name) (i : ℕ) (c : ServiceClient Name Conn),
    s.ctrl.clientMap.get? name = some i → s.clients[i]? = some c → c.stale = false
  latest : s.adding = [] → ∀ name,
    s.ctrl.clientMap.get? name = (s.latest name).filter fun i => (s.clients[i]?).any fun c => !c.gone

/-- A client waits to be entered. -/
def Waits (s : Sessions Name Conn App Actor) (i : ℕ) : Prop := ∃ conn ∈ s.adding, s.current conn = some i

instance (s : Sessions Name Conn App Actor) (i : ℕ) : Decidable (s.Waits i) := by
  unfold Waits
  infer_instance

/-- The client is its node's latest, or that one waits to be entered. -/
def Superseding (s : Sessions Name Conn App Actor) (i : ℕ) (name : Name) : Prop :=
  s.latest name = some i ∨ ∃ j ∈ s.latest name, s.Waits j

instance (s : Sessions Name Conn App Actor) (i : ℕ) (name : Name) : Decidable (s.Superseding i name) := by
  unfold Superseding
  infer_instance

/-- If a client leaves, nothing is on record under its name but itself or what is replaced later. -/
def Leaves (s : Sessions Name Conn App Actor) (i : ℕ) : Prop :=
  ∀ c ∈ s.clients[i]?, s.Superseding i c.name ∨ c.name ∉ s.ctrl.clientMap

instance (s : Sessions Name Conn App Actor) (i : ℕ) : Decidable (s.Leaves i) := by
  unfold Leaves
  infer_instance

/-- A step that leaves the record right: a connection logs in again under its name, with its client closed or a client
of the name on record; a client that is entered is its node's latest, or that one waits, or the client is closed and
nothing is on record under its name; and so with a client that leaves. -/
def Orderly (s : Sessions Name Conn App Actor) : SessionEvent Name Conn App → Prop
  | .login conn name =>
    ∀ i ∈ s.current conn, ∀ c ∈ s.clients[i]?, c.name = name ∧ (c.stale = true ∨ name ∈ s.ctrl.clientMap)
  | .addClient n _ _ => ∀ conn ∈ s.adding[n]?, ∀ i ∈ s.current conn, ∀ c ∈ s.clients[i]?,
    s.Superseding i c.name ∨ (c.stale = true ∧ c.name ∉ s.ctrl.clientMap)
  | .disconnect conn | .logout conn => ∀ i ∈ s.current conn, s.Leaves i
  | .ping _ => True
  | .drop n => ∀ i ∈ s.drops[n]?, s.Leaves i

instance (s : Sessions Name Conn App Actor) (ev : SessionEvent Name Conn App) : Decidable (s.Orderly ev) := by
  unfold Orderly
  split <;> infer_instance

/-! ### The invariant -/

/-- What is kept under one name. Who is on record is open and has the name. The latest client is closed exactly if it
is gone, and is else the client of its connection; and unless it waits, it is on record exactly if it is not gone. -/
structure NameInv (s : Sessions Name Conn App Actor) (name : Name) : Prop where
  named : ∀ i, s.ctrl.clientMap.get? name = some i →
    ∃ c : ServiceClient Name Conn, s.clients[i]? = some c ∧ c.name = name ∧ c.stale = false
  latest : ∀ i, s.latest name = some i → ∃ c : ServiceClient Name Conn, s.clients[i]? = some c ∧ c.name = name ∧
    c.stale = c.gone ∧ (c.stale = false → s.current c.conn = some i)
  record : ∀ (i : ℕ) (c : ServiceClient Name Conn), s.latest name = some i → s.clients[i]? = some c →
    s.Waits i ∨ s.ctrl.clientMap.get? name = if c.gone then none else some i

/-- The invariant of orderly steps. -/
structure SessionInv (s : Sessions Name Conn App Actor) : Prop where
  quiet : s.raised = false
  every : ∀ (i : ℕ) (c : ServiceClient Name Conn), s.clients[i]? = some c → s.latest c.name ≠ none
  current : ∀ conn i, s.current conn = some i → ∃ c : ServiceClient Name Conn, s.clients[i]? = some c ∧ c.conn = conn
  name : ∀ name, NameInv s name

section Invariant

omit [DecidableEq Conn] [DecidableEq App]

variable {s t : Sessions Name Conn App Actor}

/-- What is kept under a name, when nothing of the name changes. -/
theorem NameInv.frame {name : Name} (h : NameInv s name)
    (hmap : t.ctrl.clientMap.get? name = s.ctrl.clientMap.get? name) (hlatest : t.latest name = s.latest name)
    (hclient : ∀ (i : ℕ) (c : ServiceClient Name Conn), s.clients[i]? = some c → c.name = name → t.clients[i]? = some c)
    (hcurrent : ∀ conn (i : ℕ) (c : ServiceClient Name Conn), s.clients[i]? = some c → c.name = name →
      s.current conn = some i → t.current conn = some i)
    (hadding : ∀ conn ∈ s.adding, ∀ i ∈ s.current conn, ∀ c ∈ s.clients[i]?, c.name = name → conn ∈ t.adding) :
    NameInv t name := by
  refine ⟨fun i hi => ?_, fun i hi => ?_, fun i c hi hc => ?_⟩
  · obtain ⟨c, hc, hname, hstale⟩ := h.named i (hmap ▸ hi)
    exact ⟨c, hclient i c hc hname, hname, hstale⟩
  · obtain ⟨c, hc, hname, hgone, hcur⟩ := h.latest i (hlatest ▸ hi)
    exact ⟨c, hclient i c hc hname, hname, hgone, fun hstale => hcurrent _ i c hc hname (hcur hstale)⟩
  · obtain ⟨d, hd, hname, -, -⟩ := h.latest i (hlatest ▸ hi)
    obtain rfl := Option.some.inj ((hclient i d hd hname).symm.trans hc)
    rcases h.record i d (hlatest ▸ hi) hd with ⟨conn, hconn, hcur⟩ | hrec
    · exact .inl ⟨conn, hadding conn hconn i hcur d hd hname, hcurrent conn i d hd hname hcur⟩
    · exact .inr (hmap.trans hrec)

theorem sessionInv_start : SessionInv (start : Sessions Name Conn App Actor) := by
  refine ⟨rfl, by simp [start], by simp [start], fun name => ?_⟩
  constructor <;> simp [start, Controller.init]

/-- What is on record when no client waits. -/
theorem SessionInv.tidy (h : SessionInv s) : Tidy s := by
  refine ⟨h.quiet, fun name i c hi hc => ?_, fun hnil name => ?_⟩
  · obtain ⟨c', hc', -, hstale⟩ := (h.name name).named i hi
    obtain rfl := Option.some.inj (hc.symm.trans hc')
    exact hstale
  · cases hl : s.latest name with
    | none =>
      cases hi : s.ctrl.clientMap.get? name with
      | none => rfl
      | some i =>
        obtain ⟨c, hc, rfl, -⟩ := (h.name name).named i hi
        exact absurd hl (h.every i c hc)
    | some i =>
      obtain ⟨c, hc, -, -, -⟩ := (h.name name).latest i hl
      rcases (h.name name).record i c hl hc with ⟨conn, hconn, -⟩ | hrec
      · rw [hnil] at hconn
        cases hconn
      · rw [hrec]
        cases hgone : c.gone <;> simp [hc, hgone, Option.filter]

end Invariant

/-! ### Clients that change -/

section Changes

variable {s : Sessions Name Conn App Actor}

omit [DecidableEq Name] [DecidableEq Conn] in
/-- The clients, when one of them is changed. -/
theorem getElem?_modify_clients (l : List (ServiceClient Name Conn)) (i j : ℕ)
    (f : ServiceClient Name Conn → ServiceClient Name Conn) :
    (l.modify i f)[j]? = if j = i then (l[j]?).map f else l[j]? := by
  rw [List.getElem?_modify]
  by_cases h : i = j
  · simp [h]
  · simp [h, Ne.symm h]

omit [DecidableEq Name] [DecidableEq Conn] in
/-- A changed client, if its name and its connection stay, is where it was. -/
theorem exists_of_modify {l : List (ServiceClient Name Conn)} {i j : ℕ}
    {f : ServiceClient Name Conn → ServiceClient Name Conn} (hf : ∀ c, (f c).name = c.name ∧ (f c).conn = c.conn)
    {c : ServiceClient Name Conn} (hc : l[j]? = some c) :
    ∃ d, (l.modify i f)[j]? = some d ∧ d.name = c.name ∧ d.conn = c.conn ∧ (j ≠ i → d = c) := by
  rw [getElem?_modify_clients, hc]
  by_cases hji : j = i
  · exact ⟨f c, by simp [hji], (hf c).1, (hf c).2, fun hne => absurd hji hne⟩
  · exact ⟨c, by simp [hji], rfl, rfl, fun _ => rfl⟩

omit [DecidableEq Conn] [DecidableEq App] in
/-- **A client leaves.** It is closed, and its name is off the record: right, if a latest client of the name that is
another one is gone or waits. -/
theorem sessionInv_retire {i : ℕ} {c : ServiceClient Name Conn} (hc : s.clients[i]? = some c)
    (hquiet : s.raised = false)
    (hevery : ∀ (i : ℕ) (c : ServiceClient Name Conn), s.clients[i]? = some c → s.latest c.name ≠ none)
    (hcurrent : ∀ conn i, s.current conn = some i →
      ∃ c : ServiceClient Name Conn, s.clients[i]? = some c ∧ c.conn = conn)
    (hothers : ∀ name ≠ c.name, NameInv s name)
    (hlatest : ∀ i, s.latest c.name = some i → ∃ d : ServiceClient Name Conn, s.clients[i]? = some d ∧ d.name = c.name ∧
      d.stale = d.gone ∧ (d.stale = false → s.current d.conn = some i))
    (hrecord : ∀ (j : ℕ) (d : ServiceClient Name Conn), s.latest c.name = some j → s.clients[j]? = some d → j ≠ i →
      s.Waits j ∨ d.gone = true) : SessionInv (s.retire i) := by
  let shut (c : ServiceClient Name Conn) : ServiceClient Name Conn := { c with stale := true, gone := true }
  have hstep : s.retire i = { s with clients := s.clients.modify i shut, ctrl := s.ctrl.delClient c.name } := by
    simp [Sessions.retire, hc, shut]
  have hclients (j : ℕ) := getElem?_modify_clients s.clients i j shut
  rw [hstep]
  refine ⟨hquiet, fun j d hd => ?_, fun conn j hj => ?_, fun name => ?_⟩
  · simp only [hclients] at hd
    split at hd
    · obtain ⟨d', hd', rfl⟩ := Option.map_eq_some_iff.mp hd
      exact hevery j d' hd'
    · exact hevery j d hd
  · obtain ⟨d, hd, rfl⟩ := hcurrent conn j hj
    obtain ⟨d', hd', -, hconn, -⟩ := exists_of_modify (f := shut) (i := i) (fun _ => ⟨rfl, rfl⟩) hd
    exact ⟨d', hd', hconn⟩
  · by_cases hname : name = c.name
    · subst hname
      refine ⟨fun j hj => ?_, fun j hj => ?_, fun j d hj hd => ?_⟩
      · simp [Dict.get?_del] at hj
      · obtain ⟨d, hd, hdname, hgone, hcur⟩ := hlatest j hj
        by_cases hji : j = i
        · refine ⟨shut d, ?_, hdname, rfl, fun hf => by cases hf⟩
          rw [hclients, if_pos hji, hd]
          rfl
        · exact ⟨d, by rw [hclients, if_neg hji, hd], hdname, hgone, hcur⟩
      · simp only [hclients] at hd
        have hnone : (s.ctrl.delClient c.name).clientMap.get? c.name = none := by simp [Dict.get?_del]
        split at hd
        · obtain ⟨d', hd', rfl⟩ := Option.map_eq_some_iff.mp hd
          exact .inr hnone
        · rename_i hji
          rcases hrecord j d hj hd hji with hwaits | hgone
          · exact .inl hwaits
          · rw [hgone]
            exact .inr hnone
    · refine (hothers name hname).frame (by simp [Dict.get?_del, hname]) rfl (fun j d hd hdname => ?_)
        (fun _ _ _ _ _ => id) fun _ hconn _ _ _ _ _ => hconn
      have hji : j ≠ i := by
        rintro rfl
        obtain rfl := Option.some.inj (hc.symm.trans hd)
        exact hname hdname.symm
      exact (hclients j).trans (by rw [if_neg hji, hd])

omit [DecidableEq Conn] [DecidableEq App] in
theorem SessionInv.retire (h : SessionInv s) {i : ℕ} (hleaves : s.Leaves i) : SessionInv (s.retire i) := by
  cases hc : s.clients[i]? with
  | none =>
    have hsame : s.retire i = s := by simp [Sessions.retire, hc]
    rwa [hsame]
  | some c =>
    refine sessionInv_retire hc h.quiet h.every h.current (fun name _ => h.name name) (h.name c.name).latest
      fun j d hj hd hji => ?_
    rcases hleaves c hc with (hlatest | ⟨k, hk, hwaits⟩) | hfree
    · exact absurd (Option.some.inj (hj.symm.trans hlatest)) hji
    · obtain rfl := Option.some.inj (hk.symm.trans hj)
      exact .inl hwaits
    · refine ((h.name c.name).record j d hj hd).imp_right fun hrec => ?_
      rw [Dict.get?_eq_none_iff.mpr hfree] at hrec
      by_contra hgone
      simp [hgone] at hrec

omit [DecidableEq App] in
/-- The clients of a connection whose own client is closed are gone. -/
theorem SessionInv.hangUp (h : SessionInv s) {conn : Conn}
    (hclosed : ∀ i ∈ s.current conn, ∀ c ∈ s.clients[i]?, c.stale = true) : SessionInv (s.hangUp conn) := by
  have hget (j : ℕ) : (s.hangUp conn).clients[j]? =
      (s.clients[j]?).map fun c => if c.conn = conn then { c with gone := true } else c := List.getElem?_map
  have hfields (c : ServiceClient Name Conn) :
      (if c.conn = conn then { c with gone := true } else c).name = c.name ∧
        (if c.conn = conn then { c with gone := true } else c).conn = c.conn ∧
        (if c.conn = conn then { c with gone := true } else c).stale = c.stale := by
    split_ifs <;> exact ⟨rfl, rfl, rfl⟩
  -- a latest client of the connection is gone already
  have hsame (name : Name) (i : ℕ) (c : ServiceClient Name Conn) (hi : s.latest name = some i)
      (hc : s.clients[i]? = some c) : (if c.conn = conn then { c with gone := true } else c) = c := by
    obtain ⟨c', hc', -, hgone, hcur⟩ := (h.name name).latest i hi
    obtain rfl := Option.some.inj (hc.symm.trans hc')
    split_ifs with hconn
    · have hstale : c.stale = true := by
        by_contra hopen
        have hopen' : c.stale = false := by simpa using hopen
        exact hopen (hclosed i (hconn ▸ hcur hopen') c hc)
      rw [← hgone.symm.trans hstale]
    · rfl
  refine ⟨h.quiet, fun i c hc => ?_, fun conn' i hi => ?_,
    fun name => ⟨fun i hi => ?_, fun i hi => ?_, fun i c hi hc => ?_⟩⟩
  · rw [hget] at hc
    obtain ⟨c', hc', rfl⟩ := Option.map_eq_some_iff.mp hc
    rw [(hfields c').1]
    exact h.every i c' hc'
  · obtain ⟨c, hc, rfl⟩ := h.current conn' i hi
    exact ⟨_, by rw [hget, hc]; rfl, (hfields c).2.1⟩
  · obtain ⟨c, hc, hname, hstale⟩ := (h.name name).named i hi
    exact ⟨_, by rw [hget, hc]; rfl, (hfields c).1.trans hname, (hfields c).2.2.trans hstale⟩
  · obtain ⟨c, hc, hname, hgone, hcur⟩ := (h.name name).latest i hi
    exact ⟨c, by rw [hget, hc, Option.map_some, hsame name i c hi hc], hname, hgone, hcur⟩
  · rw [hget] at hc
    obtain ⟨c', hc', rfl⟩ := Option.map_eq_some_iff.mp hc
    rw [hsame name i c' hi hc']
    exact (h.name name).record i c' hi hc'

omit [DecidableEq Conn] [DecidableEq App] in
/-- The client of a connection is retired. -/
theorem SessionInv.retireCurrent (h : SessionInv s) {conn : Conn} (hleaves : ∀ i ∈ s.current conn, s.Leaves i) :
    SessionInv (s.retireCurrent conn) := by
  unfold Sessions.retireCurrent
  cases hi : s.current conn with
  | none => exact h
  | some i => exact h.retire (hleaves i hi)

omit [DecidableEq Conn] [DecidableEq App] in
theorem current_retire (i : ℕ) (s : Sessions Name Conn App Actor) : (s.retire i).current = s.current := by
  unfold Sessions.retire
  split <;> rfl

omit [DecidableEq Conn] [DecidableEq App] in
theorem closed_retire (h : SessionInv s) (conn : Conn) :
    ∀ i ∈ (s.retireCurrent conn).current conn, ∀ c ∈ (s.retireCurrent conn).clients[i]?, c.stale = true := by
  unfold Sessions.retireCurrent
  cases hi : s.current conn with
  | none =>
    intro i hi'
    rw [hi] at hi'
    cases hi'
  | some i =>
    intro j hj c hc
    simp only at hj hc
    rw [current_retire, hi] at hj
    obtain rfl := Option.some.inj hj
    obtain ⟨d, hd, -⟩ := h.current conn i hi
    have hclients : (s.retire i).clients = s.clients.modify i fun c => { c with stale := true, gone := true } := by
      simp [Sessions.retire, hd]
    rw [hclients, getElem?_modify_clients, if_pos rfl, hd] at hc
    obtain rfl := Option.some.inj hc
    rfl

omit [DecidableEq App] in
/-- **A node logs in**, on a connection whose client, if it has one, is of the same node. -/
theorem sessionInv_enter {conn : Conn} {name : Name} (hquiet : s.raised = false)
    (hevery : ∀ (i : ℕ) (c : ServiceClient Name Conn), s.clients[i]? = some c → s.latest c.name ≠ none)
    (hcurrent : ∀ conn i, s.current conn = some i →
      ∃ c : ServiceClient Name Conn, s.clients[i]? = some c ∧ c.conn = conn)
    (hothers : ∀ name' ≠ name, NameInv s name') (hown : ∀ i ∈ s.current conn, ∀ c ∈ s.clients[i]?, c.name = name)
    (hfree : name ∉ s.ctrl.clientMap) : SessionInv (s.enter conn name) := by
  have hnew : (s.enter conn name).clients[s.clients.length]? = some ⟨name, conn, false, false⟩ := by
    simp [Sessions.enter]
  have hold {i : ℕ} {c : ServiceClient Name Conn} (hc : s.clients[i]? = some c) :
      (s.enter conn name).clients[i]? = some c :=
    List.getElem?_append_left (List.getElem?_eq_some_iff.mp hc).1 ▸ hc
  -- the client of another name is not that of the connection
  have hother {i : ℕ} {c : ServiceClient Name Conn} {conn' : Conn} (hc : s.clients[i]? = some c) (hname : c.name ≠ name)
      (hi : s.current conn' = some i) : conn' ≠ conn := by
    rintro rfl
    exact hname (hown i hi c hc)
  refine ⟨hquiet, fun i c hc => ?_, fun conn' i hi => ?_, fun name' => ?_⟩
  · by_cases hname : c.name = name
    · simp [Sessions.enter, hname]
    · simp only [Sessions.enter, Function.update_of_ne hname]
      by_cases hi : i < s.clients.length
      · exact hevery i c (by simpa [Sessions.enter, List.getElem?_append_left hi] using hc)
      · have hi' : i = s.clients.length := by
          have := (List.getElem?_eq_some_iff.mp hc).1
          simp [Sessions.enter] at this
          omega
        subst hi'
        obtain rfl := Option.some.inj (hc.symm.trans hnew)
        exact absurd rfl hname
  · by_cases hconn : conn' = conn
    · subst hconn
      have hi' : i = s.clients.length := by simpa [Sessions.enter, eq_comm] using hi
      exact ⟨_, hi' ▸ hnew, rfl⟩
    · obtain ⟨c, hc, hc'⟩ := hcurrent conn' i (by simpa [Sessions.enter, Function.update_of_ne hconn] using hi)
      exact ⟨c, hold hc, hc'⟩
  · by_cases hname : name' = name
    · subst hname
      refine ⟨fun i hi => ?_, fun i hi => ?_, fun i c hi _ => ?_⟩
      · exact absurd (Dict.mem_of_get? hi) hfree
      · have hi' : i = s.clients.length := by simpa [Sessions.enter, eq_comm] using hi
        exact ⟨_, hi' ▸ hnew, rfl, rfl, fun _ => by simp [Sessions.enter, hi']⟩
      · have hi' : i = s.clients.length := by simpa [Sessions.enter, eq_comm] using hi
        exact .inl ⟨conn, List.mem_append_right _ List.mem_cons_self, by simp [Sessions.enter, hi']⟩
    · refine (hothers name' hname).frame rfl (by simp [Sessions.enter, hname]) (fun i c hc _ => hold hc) ?_
        fun conn' hconn' _ _ _ _ _ => List.mem_append_left _ hconn'
      intro conn' i c hc hcname hi
      have hne := hother hc (hcname ▸ hname) hi
      simpa [Sessions.enter, Function.update_of_ne hne] using hi

omit [DecidableEq App] in
/-- A login takes the client that is on record under its name off the record. -/
theorem SessionInv.login (h : SessionInv s) {conn : Conn} {name : Name}
    (horderly : ∀ i ∈ s.current conn, ∀ c ∈ s.clients[i]?, c.name = name ∧ (c.stale = true ∨ name ∈ s.ctrl.clientMap)) :
    SessionInv (s.login conn name) := by
  have hown : ∀ i ∈ s.current conn, ∀ c ∈ s.clients[i]?, c.name = name := fun i hi c hc => (horderly i hi c hc).1
  unfold Sessions.login
  split
  · rename_i hcond
    cases hold : s.ctrl.clientMap.get? name with
    | none =>
      have hfree := Dict.get?_eq_none_iff.mp hold
      have hopen := hcond.resolve_right hfree
      unfold isOpen at hopen
      split at hopen
      · rename_i c hc
        obtain ⟨i, hi, hci⟩ := Option.bind_eq_some_iff.mp hc
        rcases (horderly i hi c hci).2 with hstale | hmem
        · simp [hstale] at hopen
        · exact absurd hmem hfree
      · cases hopen
    | some old =>
      obtain ⟨c, hc, rfl, -⟩ := (h.name name).named old hold
      let shut (c : ServiceClient Name Conn) : ServiceClient Name Conn := { c with stale := true }
      have hclients (j : ℕ) := getElem?_modify_clients s.clients old j shut
      refine sessionInv_enter h.quiet (fun i d hd => ?_) (fun conn' i hi => ?_) (fun name' hname => ?_)
        (fun i hi d hd => ?_) ?_
      · rw [show (s.close old).clients[i]? = _ from hclients i] at hd
        split at hd
        · obtain ⟨d', hd', rfl⟩ := Option.map_eq_some_iff.mp hd
          exact h.every i d' hd'
        · exact h.every i d hd
      · obtain ⟨d, hd, rfl⟩ := h.current conn' i hi
        obtain ⟨d', hd', -, hconn, -⟩ := exists_of_modify (f := shut) (i := old) (fun _ => ⟨rfl, rfl⟩) hd
        exact ⟨d', hd', hconn⟩
      · refine (h.name name').frame (by simp [Dict.get?_del, hname, close]) rfl (fun j d hd hdname => ?_)
          (fun _ _ _ _ _ => id) fun _ hconn _ _ _ _ _ => hconn
        have hne : j ≠ old := by
          rintro rfl
          obtain rfl := Option.some.inj (hc.symm.trans hd)
          exact hname hdname.symm
        exact (hclients j).trans (by rw [if_neg hne, hd])
      · rw [show (s.close old).clients[i]? = _ from hclients i] at hd
        split at hd
        · obtain ⟨d', hd', rfl⟩ := Option.map_eq_some_iff.mp hd
          exact hown i hi d' hd'
        · exact hown i hi d hd
      · simp [close, Dict.mem_del]
  · rename_i hcond
    exact sessionInv_enter h.quiet h.every h.current (fun name' _ => h.name name') hown fun hmem => hcond (.inr hmem)

omit [DecidableEq Conn] in
/-- **A client is entered**, by a thread that has waited. -/
theorem SessionInv.addClient (h : SessionInv s) {n : ℕ} {conn : Conn} (hn : s.adding[n]? = some conn) (ok : Bool)
    (apps : List App)
    (horderly : ∀ i ∈ s.current conn, ∀ c ∈ s.clients[i]?,
      s.Superseding i c.name ∨ (c.stale = true ∧ c.name ∉ s.ctrl.clientMap)) :
    SessionInv ({ s with adding := s.adding.eraseIdx n }.addClient conn ok apps) := by
  -- the threads of other connections still wait
  have hstill : ∀ conn' ∈ s.adding, conn' ≠ conn → conn' ∈ s.adding.eraseIdx n := by
    intro conn' hmem hne
    obtain ⟨m, hm⟩ := List.mem_iff_getElem?.mp hmem
    refine List.mem_eraseIdx_iff_getElem?.mpr ⟨m, ?_, hm⟩
    rintro rfl
    exact hne (Option.some.inj (hm.symm.trans hn))
  unfold Sessions.addClient
  cases hi : s.current conn with
  | none =>
    refine ⟨h.quiet, h.every, h.current, fun name => (h.name name).frame rfl rfl (fun _ _ hc _ => hc)
      (fun _ _ _ _ _ => id) fun conn' hconn' i hcur _ _ _ => hstill conn' hconn' ?_⟩
    rintro rfl
    rw [hi] at hcur
    cases hcur
  | some i =>
    obtain ⟨c, hc, -⟩ := h.current conn i hi
    have hothers {t : Sessions Name Conn App Actor} (hl : t.latest = s.latest) (hcl : t.clients = s.clients)
        (hcu : t.current = s.current) (had : t.adding = s.adding.eraseIdx n) (name : Name) (hname : name ≠ c.name)
        (hmap : t.ctrl.clientMap.get? name = s.ctrl.clientMap.get? name) : NameInv t name := by
      refine (h.name name).frame hmap (by rw [hl]) (fun _ _ hd _ => by rw [hcl, hd])
        (fun _ _ _ _ _ hd => by rw [hcu, hd]) ?_
      intro conn' hconn' j hj d hd hdname
      rw [had]
      refine hstill conn' hconn' ?_
      rintro rfl
      obtain rfl := Option.some.inj (hi.symm.trans hj)
      obtain rfl := Option.some.inj (hc.symm.trans hd)
      exact hname hdname.symm
    have hwaits {j : ℕ} (hji : j ≠ i) (hj : s.Waits j) : ∃ conn' ∈ s.adding.eraseIdx n, s.current conn' = some j := by
      obtain ⟨conn', hconn', hcur⟩ := hj
      refine ⟨conn', hstill conn' hconn' ?_, hcur⟩
      rintro rfl
      exact hji (Option.some.inj (hcur.symm.trans hi))
    have hset (name : Name) (hname : name ≠ c.name) :
        (s.ctrl.clientMap.set c.name i).get? name = s.ctrl.clientMap.get? name := Dict.get?_set_of_ne _ _ hname
    simp only [hc]
    split
    · rename_i hlive
      refine ⟨h.quiet, h.every, h.current, fun name => ?_⟩
      by_cases hname : name = c.name
      · subst hname
        refine ⟨fun j hj => ?_, (h.name c.name).latest, fun j d hj hd => ?_⟩
        · obtain rfl : i = j := by simpa [Controller.addRecoveredAppInfo, Controller.enterClient] using hj
          exact ⟨c, hc, rfl, hlive.1⟩
        · by_cases hji : j = i
          · subst hji
            obtain ⟨d', hd', -, hgone, -⟩ := (h.name c.name).latest j hj
            obtain rfl := Option.some.inj (hc.symm.trans hd)
            obtain rfl := Option.some.inj (hc.symm.trans hd')
            refine .inr ?_
            rw [← hgone, hlive.1]
            simp [Controller.addRecoveredAppInfo, Controller.enterClient]
          · rcases horderly i hi c hc with (hlatest | ⟨k, hk, hk'⟩) | ⟨hstale, -⟩
            · exact absurd (Option.some.inj (hj.symm.trans hlatest)) hji
            · obtain rfl := Option.some.inj (hk.symm.trans hj)
              exact .inl (hwaits hji hk')
            · rw [hlive.1] at hstale
              cases hstale
      · exact hothers (by rfl) (by rfl) (by rfl) (by rfl) name hname (by exact hset name hname)
    · refine sessionInv_retire hc h.quiet h.every h.current
        (fun name hname => hothers (by rfl) (by rfl) (by rfl) (by rfl) name hname (by exact hset name hname))
        (h.name c.name).latest
        fun j d hj hd hji => ?_
      rcases horderly i hi c hc with (hlatest | ⟨k, hk, hk'⟩) | ⟨-, hfree⟩
      · exact absurd (Option.some.inj (hj.symm.trans hlatest)) hji
      · obtain rfl := Option.some.inj (hk.symm.trans hj)
        exact .inl (hwaits hji hk')
      · rcases (h.name c.name).record j d hj hd with hw | hrec
        · exact .inl (hwaits hji hw)
        · rw [Dict.get?_eq_none_iff.mpr hfree] at hrec
          refine .inr ?_
          by_contra hgone
          simp [hgone] at hrec

/-- Each step keeps the invariant, if it is orderly. -/
theorem SessionInv.step (h : SessionInv s) {ev : SessionEvent Name Conn App} (horderly : s.Orderly ev) :
    SessionInv (s.step ev) := by
  cases ev with
  | login conn name =>
    simp only [Sessions.step]
    split
    · exact h
    · exact h.login horderly
  | addClient n ok apps =>
    simp only [Sessions.step]
    cases hn : s.adding[n]? with
    | none => exact h
    | some conn => exact h.addClient hn ok apps (horderly conn hn)
  | disconnect conn =>
    simp only [Sessions.step]
    split
    · exact h
    · exact (h.retireCurrent horderly).hangUp (closed_retire h conn)
  | logout conn =>
    simp only [Sessions.step]
    split
    · exact h
    · exact h.retireCurrent horderly
  | ping fails =>
    exact ⟨h.quiet, h.every, h.current,
      fun name => (h.name name).frame rfl rfl (fun _ _ hc _ => hc) (fun _ _ _ _ _ => id)
      fun _ hconn _ _ _ _ _ => hconn⟩
  | drop n =>
    simp only [Sessions.step]
    cases hn : s.drops[n]? with
    | none => exact h
    | some i =>
      have hcut : SessionInv { s with drops := s.drops.eraseIdx n } :=
        ⟨h.quiet, h.every, h.current, fun name => (h.name name).frame rfl rfl (fun _ _ hc _ => hc) (fun _ _ _ _ _ => id)
          fun _ hconn _ _ _ _ _ => hconn⟩
      exact hcut.retire (horderly i hn)

end Changes

/-- **The record of the clients**, in every run of orderly steps: no step raises an exception, no closed client is on
record and, when no client waits to be entered, a node's latest client is on record exactly if it is not gone. -/
theorem tidy_run (evs : List (SessionEvent Name Conn App))
    (h : AllSteps step Orderly (start : Sessions Name Conn App Actor) evs) :
    Always step Tidy (start : Sessions Name Conn App Actor) evs :=
  fun pre hpre => (h.always (I := SessionInv) (fun _ _ hs horderly => hs.step horderly) sessionInv_start pre hpre).tidy

/-! ### One node -/

/-- Node 7 logs in, loses its connection, and logs in again on another. -/
theorem tidy_reconnect :
    Always step Tidy (start : Sessions ℕ ℕ ℕ ℕ)
      [.login 0 7, .addClient 0 true [], .disconnect 0, .login 1 7, .addClient 0 true [], .ping [1], .drop 0] :=
  tidy_run _ (by decide)

/-- Node 7 logs in again before its old connection ends, whose end then removes the new client; or it logs in twice on
one connection before its client is entered, and the second login raises an exception. -/
theorem replacement_removed :
    ¬ Always step Tidy (start : Sessions ℕ ℕ ℕ ℕ)
        [.login 0 7, .addClient 0 true [], .login 1 7, .addClient 0 true [], .disconnect 0] ∧
      ¬ Always step Tidy (start : Sessions ℕ ℕ ℕ ℕ) [.login 0 7, .login 0 7] := by
  constructor
  · intro h
    have hlast := h.last.latest (by decide) 7
    revert hlast
    decide
  · intro h
    have hlast := h.last.quiet
    revert hlast
    decide

end Sessions

end Riaps.Control
