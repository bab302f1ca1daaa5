import Riaps.Actor.GroupNet

/-!
# How the members of a group find each other

A member learns of another from the reply to its lookup, from its own server
when the other registers there, or from a call of the listener of its host. Two
things break the third way. The end of one lookup cancels the listener of the
host, whoever else needs it; and the call for a mark drops all updates of the
key that wait to be sent. In a run without either (`Undisturbed`) the members
know each other once all is handled: `discovered_run`.

The invariant says of each member, and each address that it should have, on
which of the ways the address is.
-/

namespace Riaps.Run

open Riaps.Foundation Riaps.Discovery
open Riaps.Discovery.DiscoService

namespace GroupNet

variable {n : ℕ} {g : GroupInstance n}

/-! ### The hosts -/

variable {dht : Dht} {s : GroupNet g}

/-- The part has registered an address, and has not taken it back. -/
def Holds (s : GroupNet g) (m : Member g) (port : Int32) : Prop :=
  s.members.get? m = some (.joined port) ∨ s.members.get? m = some (.leaving port)

/-- The part needs the listener of its host. -/
def Listens (s : GroupNet g) (m : Member g) : Prop := ∃ status, s.members.get? m = some status ∧ status.listens = true

/-- The part was sent an address. -/
def Knows (s : GroupNet g) (m : Member g) (j : Fin n) (port : Int32) : Prop :=
  ∀ sock, (s.servers m.host).clients.get? (clientKeyBase g.appName m.actorName) = some (.sock sock) →
    g.address j port ∈ received sock g.key m.clientString m.client (s.servers m.host).sent

/-- It was sent an address, or will be: the update waits, or the listener of its host is to be called. -/
def Told (s : GroupNet g) (m : Member g) (j : Fin n) (port : Int32) : Prop :=
  s.Knows m j port ∨ j ≠ m.host ∧
    ((g.key, socketValue (g.address j port)) ∈ (s.servers m.host).dbase.updates ∨
      (m.host, g.key, socketValue (g.address j port)) ∈ s.calls)

/-- The invariant. -/
structure Inv (s : GroupNet g) : Prop where
  servers : ∀ i, ServerInv g i s.puts (s.servers i)
  addresses : Addresses g s.puts
  put : ∀ m port, s.Holds m port → (g.key, socketValue (g.address m.host port)) ∈ s.puts
  distinct : ∀ m m' port, s.Holds m port → s.Holds m' port → m.host = m'.host → m = m'
  unmarked : ∀ m port, s.members.get? m = some (.joined port) →
    (g.key, delValue (socketValue (g.address m.host port))) ∉ s.puts
  listed : ∀ m, s.Listens m → g.key ∈ (s.servers m.host).dbase.listeners ∧
    m.clientString ∈ (s.servers m.host).dbase.clientsOf g.key
  told : ∀ m, s.Listens m → ∀ m' port, s.members.get? m' = some (.joined port) → s.Told m m'.host port

/-- The invariant is what it takes for the members to know each other once all is handled. -/
theorem Inv.discovered (h : Inv s) (hquiet : Quiet s) : Discovered s := by
  obtain ⟨-, hcalls, hupdates⟩ := hquiet
  intro m port m' port' hm hm'
  obtain ⟨sock, hsock⟩ := (h.servers m.host).socks _ m.mem_actors
  refine ⟨sock, hsock, ?_⟩
  rcases h.told m ⟨_, hm, rfl⟩ m' port' hm' with hknows | ⟨-, hupd | hcall⟩
  · exact hknows sock hsock
  · rw [hupdates] at hupd
    exact absurd hupd List.not_mem_nil
  · rw [hcalls] at hcall
    exact absurd hcall List.not_mem_nil

/-- The server of a host, over the table. -/
theorem Inv.server (h : Inv s) (i : Fin n) : ServerInv g i (s.server i).dbase.puts (s.server i) :=
  { h.servers i with }

theorem serve_servers_self (i : Fin n) (e : DiscoService.Event) :
    (s.serve dht i e).servers i = DiscoService.step (g.hosts i) dht (s.server i) e := Function.update_self ..

theorem serve_servers_of_ne {i j : Fin n} (hij : j ≠ i) (e : DiscoService.Event) :
    (s.serve dht i e).servers j = s.servers j := Function.update_of_ne hij ..

/-- Of an address that one of the others knows it knows more later. -/
theorem Told.mono {s' : GroupNet g} {m : Member g} {j : Fin n} {port : Int32} (h : s.Told m j port)
    (hserver : s'.servers m.host = s.servers m.host) (hcalls : ∀ p, (m.host, p) ∈ s.calls → (m.host, p) ∈ s'.calls) :
    s'.Told m j port := by
  unfold Told Knows at h ⊢
  rw [hserver]
  exact h.imp_right fun ⟨hne, hlater⟩ => ⟨hne, hlater.imp_right (hcalls _)⟩

/-- What a member was sent it was sent when its server has sent more. -/
theorem Knows.mono {s' : GroupNet g} {m : Member g} {j : Fin n} {port : Int32} (h : s.Knows m j port)
    (hclients : (s'.servers m.host).clients = (s.servers m.host).clients)
    (hsent : ∀ sock socket, socket ∈ received sock g.key m.clientString m.client (s.servers m.host).sent →
      socket ∈ received sock g.key m.clientString m.client (s'.servers m.host).sent) : s'.Knows m j port := by
  intro sock hsock
  rw [hclients] at hsock
  exact hsent sock _ (h sock hsock)

/-- What is to be shown of an event at the server of host `i`: what it does to the database, that the server goes
on, and what its own members are told. The members of other hosts are called for what is new. -/
theorem Inv.of_serve (h : Inv s) {i : Fin n} {e : DiscoService.Event} {s' : GroupNet g}
    (hchanges : Changes g i (s.server i).dbase (DiscoService.step (g.hosts i) dht (s.server i) e).dbase)
    (hafter : ServerInv g i (DiscoService.step (g.hosts i) dht (s.server i) e).dbase.puts
      (DiscoService.step (g.hosts i) dht (s.server i) e))
    (hservers : s'.servers = (s.serve dht i e).servers) (hputs : s'.puts = (s.serve dht i e).puts)
    (hcalls : ∀ j, j ≠ i → ∀ p, (j, p) ∈ (s.serve dht i e).calls → (j, p) ∈ s'.calls)
    (hput : ∀ m port, s'.Holds m port → (g.key, socketValue (g.address m.host port)) ∈ s'.puts)
    (hdistinct : ∀ m m' port, s'.Holds m port → s'.Holds m' port → m.host = m'.host → m = m')
    (hunmarked : ∀ m port, s'.members.get? m = some (.joined port) →
      (g.key, delValue (socketValue (g.address m.host port))) ∉ s'.puts)
    (hother : ∀ m, m.host ≠ i → s'.Listens m → s.Listens m ∧ ∀ m' port, s'.members.get? m' = some (.joined port) →
      s.members.get? m' = some (.joined port) ∨ (m.host, g.key, socketValue (g.address m'.host port)) ∈ s'.calls ∧
        m'.host = i)
    (hown : ∀ m, m.host = i → s'.Listens m →
      (g.key ∈ (s'.servers i).dbase.listeners ∧ m.clientString ∈ (s'.servers i).dbase.clientsOf g.key) ∧
        ∀ m' port, s'.members.get? m' = some (.joined port) → s'.Told m m'.host port) : Inv s' where
  servers j := by
    rw [hservers, hputs]
    by_cases hj : j = i
    · subst hj
      rw [serve_servers_self]
      exact hafter
    · rw [serve_servers_of_ne hj]
      exact (h.servers j).mono hchanges.puts
  addresses := hputs ▸ hchanges.addresses h.addresses
  put := hput
  distinct := hdistinct
  unmarked := hunmarked
  listed m hm := by
    by_cases hi : m.host = i
    · rw [hi]
      exact (hown m hi hm).1
    · rw [hservers, serve_servers_of_ne hi]
      exact h.listed m (hother m hi hm).1
  told m hm m' port hm' := by
    by_cases hi : m.host = i
    · exact (hown m hi hm).2 m' port hm'
    · obtain ⟨hlistens, hjoined⟩ := hother m hi hm
      rcases hjoined m' port hm' with hold | ⟨hcall, hhost⟩
      · refine (h.told m hlistens m' port hold).mono ?_ fun p hp => hcalls _ hi p (List.mem_append_left _ hp)
        rw [hservers, serve_servers_of_ne hi]
      · exact Or.inr ⟨fun he => hi (he.symm.trans hhost), Or.inr hcall⟩

/-- The same for an event that is no request of a part. -/
theorem Inv.of_serve_members (h : Inv s) {i : Fin n} {e : DiscoService.Event} {s' : GroupNet g}
    (hchanges : Changes g i (s.server i).dbase (DiscoService.step (g.hosts i) dht (s.server i) e).dbase)
    (hafter : ServerInv g i (DiscoService.step (g.hosts i) dht (s.server i) e).dbase.puts
      (DiscoService.step (g.hosts i) dht (s.server i) e))
    (hservers : s'.servers = (s.serve dht i e).servers) (hputs : s'.puts = (s.serve dht i e).puts)
    (hcalls : ∀ j, j ≠ i → ∀ p, (j, p) ∈ (s.serve dht i e).calls → (j, p) ∈ s'.calls)
    (hmembers : s'.members = s.members) (hsame : ∀ p, p ∈ s'.puts ↔ p ∈ s.puts)
    (hlisteners : g.key ∈ (s.server i).dbase.listeners → g.key ∈ (s'.servers i).dbase.listeners)
    (hclients : (s'.servers i).dbase.clientsOf g.key = (s.server i).dbase.clientsOf g.key)
    (htold : ∀ m, m.host = i → s.Listens m → ∀ m' port, s.members.get? m' = some (.joined port) →
      s'.Told m m'.host port) : Inv s' := by
  refine h.of_serve hchanges hafter hservers hputs hcalls ?_ ?_ ?_ ?_ ?_
  · intro m port hm
    unfold Holds at hm
    rw [hmembers] at hm
    exact (hsame _).mpr (h.put m port hm)
  · intro m m' port hm hm'
    unfold Holds at hm hm'
    rw [hmembers] at hm hm'
    exact h.distinct m m' port hm hm'
  · intro m port hm
    rw [hmembers] at hm
    rw [hsame]
    exact h.unmarked m port hm
  · intro m hi hm
    unfold Listens at hm
    rw [hmembers] at hm
    exact ⟨hm, fun m' port hm' => Or.inl (hmembers ▸ hm')⟩
  · rintro m rfl hm
    unfold Listens at hm
    rw [hmembers] at hm
    obtain ⟨hlistener, hclient⟩ := h.listed m hm
    refine ⟨⟨hlisteners hlistener, ?_⟩, fun m' port hm' => htold m rfl hm m' port (hmembers ▸ hm')⟩
    rw [hclients]
    exact hclient

/-! ### Events -/

/-- What the listener of a host has to be called for. -/
theorem mem_callsFor {p p' : Text × Text} {j : Fin n} :
    (j, p) ∈ s.callsFor p' ↔ p = p' ∧ p.1 ∈ (s.servers j).dbase.listeners := by
  unfold callsFor
  simp only [List.mem_map, List.mem_filter, List.mem_finRange, true_and, decide_eq_true_eq, Prod.mk.injEq]
  constructor
  · rintro ⟨i, hi, rfl, rfl⟩
    exact ⟨rfl, hi⟩
  · rintro ⟨rfl, hj⟩
    exact ⟨j, hj, rfl, rfl⟩

/-- The updates that wait are sent. -/
theorem Inv.timeout (h : Inv s) (i : Fin n) : Inv (s.serve dht i .timeout) := by
  obtain ⟨upds, hexc, hupd, hsent⟩ := step_timeout (h.server i) dht
  have hdbase := hupd.dbase
  have hchanges : Changes g i (s.server i).dbase (DiscoService.step (g.hosts i) dht (s.server i) .timeout).dbase := by
    rw [hdbase]
    exact changes_fetchUpdates i _
  have hputs : (s.serve dht i .timeout).puts = s.puts := by
    show (DiscoService.step (g.hosts i) dht (s.server i) .timeout).dbase.puts = s.puts
    rw [hdbase]
    rfl
  refine h.of_serve_members hchanges ?_ rfl rfl (fun _ _ _ => id) rfl (fun p => by rw [hputs]) ?_ ?_ ?_
  · refine (h.server i).step hchanges hexc hupd.clients (fun k hk => ?_) fun k hk => ?_
    · rw [hupd.registrations]
      exact hk
    · rw [hupd.enrollments]
      exact hk
  · rw [serve_servers_self, hdbase]
    exact id
  · rw [serve_servers_self, hdbase]
    rfl
  · rintro m rfl hm m' port hm'
    have hclients : ((s.serve dht m.host .timeout).servers m.host).clients = (s.servers m.host).clients := by
      rw [serve_servers_self, hupd.clients]
      rfl
    rcases h.told m hm m' port hm' with hknows | ⟨hne, hwait | hcall⟩
    · refine Or.inl (hknows.mono hclients fun sock socket hmem => ?_)
      rw [serve_servers_self]
      exact hupd.mem_received hmem
    · refine Or.inl fun sock hsock => ?_
      rw [hclients] at hsock
      rw [serve_servers_self]
      exact hsent m rfl (h.listed m hm).2 sock hsock _ port hwait
    · exact Or.inr ⟨hne, Or.inr (List.mem_append_left _ hcall)⟩

/-- A value is put again. -/
theorem Inv.dhtRepublish (h : Inv s) (i : Fin n) (event : ℕ) : Inv (s.serve dht i (.dhtRepublish event)) := by
  have hbacked : (s.server i).dbase.Backed := fun p hp => ((h.servers i).republished p hp).1
  have hchanges := changes_dhtRepublish (g := g) i event hbacked
  refine h.of_serve_members hchanges ?_ rfl rfl (fun _ _ _ => id) rfl (hbacked.mem_dhtRepublish_puts event) ?_ ?_ ?_
  · exact (h.server i).step hchanges (h.servers i).exc rfl (fun _ => id) fun _ => id
  · rw [serve_servers_self]
    exact fun hk => (DhtDbase.dhtRepublish_listeners event _).symm ▸ hk
  · rw [serve_servers_self]
    exact DhtDbase.clientsOf_dhtRepublish ..
  · rintro m rfl hm m' port hm'
    have hserver : (s.serve dht m.host (.dhtRepublish event)).servers m.host = _ := serve_servers_self ..
    rcases h.told m hm m' port hm' with hknows | ⟨hne, hwait | hcall⟩
    · exact Or.inl (hknows.mono (by rw [hserver]; rfl) fun sock socket hmem => by rw [hserver]; exact hmem)
    · refine Or.inr ⟨hne, Or.inl ?_⟩
      rw [hserver]
      exact (DhtDbase.dhtRepublish_updates event _).symm ▸ hwait
    · exact Or.inr ⟨hne, Or.inr (List.mem_append_left _ hcall)⟩

/-- What the call of a listener leaves of what a member is told of an address: it waits to be sent now, if the call
was for it. -/
theorem Inv.updates_dhtValueCallback (h : Inv s) {m m' : Member g} {port : Int32} {value : Text}
    (hput : (g.key, value) ∈ s.puts) (hm' : s.members.get? m' = some (.joined port)) (hne : m'.host ≠ m.host)
    (hmark : isDelValue value = true → ∀ u ∈ (s.servers m.host).dbase.updates, delValue u.2 = value)
    (hlater : (g.key, socketValue (g.address m'.host port)) ∈ (s.servers m.host).dbase.updates ∨
      socketValue (g.address m'.host port) = value) :
    (g.key, socketValue (g.address m'.host port)) ∈
      ((s.server m.host).dbase.dhtValueCallback g.key value false).updates := by
  have hunmarked := h.unmarked m' port hm'
  obtain ⟨-, j, port', rfl | ⟨rfl, -⟩⟩ := h.addresses _ hput
  · rw [(DhtDbase.dhtValueCallback_plain (plain_address j port')).2]
    split_ifs with hskip
    · refine hlater.resolve_right fun heq => ?_
      rw [← heq] at hskip
      rcases hskip with hown | hdeleted
      · -- an address of the host itself
        obtain ⟨-, port'', hp⟩ := (h.servers m.host).republished _ hown
        exact hne (address_inj (Prod.mk.inj hp).2).1
      · exact hunmarked ((h.servers m.host).deleted _ hdeleted)
    · rw [List.mem_append, List.mem_singleton]
      exact hlater.imp_right fun heq => by rw [heq]
  · exfalso
    rcases hlater with hwait | heq
    · have hval := hmark (isDelValue_delValue _) _ hwait
      exact hunmarked (hval.symm ▸ hput)
    · exact (plain_address m'.host port).ne_delValue heq

/-- A listener is called. -/
theorem Inv.dhtValueCallback (h : Inv s) (i : Fin n) {value : Text} (hput : (g.key, value) ∈ s.puts)
    (hmark : isDelValue value = true → g.key ∈ (s.servers i).dbase.listeners →
      ∀ u ∈ (s.servers i).dbase.updates, delValue u.2 = value) :
    Inv { s.serve dht i (.dhtValueCallback g.key value false) with
      calls := (s.serve dht i (.dhtValueCallback g.key value false)).calls.erase (i, g.key, value) } := by
  have hcalls : ∀ (j : Fin n) (p : Text × Text), (j, p) ≠ (i, g.key, value) →
      (j, p) ∈ (s.serve dht i (.dhtValueCallback g.key value false)).calls →
      (j, p) ∈ (s.serve dht i (.dhtValueCallback g.key value false)).calls.erase (i, g.key, value) :=
    fun j p hne hp => (List.mem_erase_of_ne hne).mpr hp
  by_cases hlistens : g.key ∈ (s.server i).dbase.listeners
  · have hstep : DiscoService.step (g.hosts i) dht (s.server i) (.dhtValueCallback g.key value false) =
        { s.server i with dbase := (s.server i).dbase.dhtValueCallback g.key value false } := by
      rw [DiscoService.step, if_pos hlistens]
    have hputs : (s.serve dht i (.dhtValueCallback g.key value false)).puts = s.puts := by
      show (DiscoService.step (g.hosts i) dht (s.server i) _).dbase.puts = s.puts
      rw [hstep]
      exact DhtDbase.dhtValueCallback_puts ..
    have hserver : (s.serve dht i (.dhtValueCallback g.key value false)).servers i = _ :=
      (serve_servers_self ..).trans hstep
    have hchanges := changes_dhtValueCallback (g := g) i h.addresses hput (d := (s.server i).dbase)
    refine h.of_serve_members (by rw [hstep]; exact hchanges) ?_ rfl rfl
      (fun j hj p => hcalls j p fun he => hj (Prod.mk.inj he).1) rfl (fun p => by rw [hputs]) ?_ ?_ ?_
    · rw [hstep]
      exact (h.server i).step hchanges (h.servers i).exc rfl (fun _ => id) fun _ => id
    · rw [hserver]
      exact fun hk => (DhtDbase.dhtValueCallback_listeners ..).symm ▸ hk
    · rw [hserver]
      exact DhtDbase.clientsOf_dhtValueCallback ..
    · rintro m rfl hm m' port hm'
      rcases h.told m hm m' port hm' with hknows | ⟨hne, hlater⟩
      · exact Or.inl (hknows.mono (by rw [hserver]; rfl) fun sock socket hmem => by rw [hserver]; exact hmem)
      · refine Or.inr ⟨hne, ?_⟩
        have hupd := h.updates_dhtValueCallback hput hm' hne fun hdel => hmark hdel hlistens
        rcases hlater with hwait | hcall
        · left
          rw [hserver]
          exact hupd (Or.inl hwait)
        · by_cases hval : socketValue (g.address m'.host port) = value
          · left
            rw [hserver]
            exact hupd (Or.inr hval)
          · right
            exact hcalls _ _ (fun he => hval (Prod.mk.inj (Prod.mk.inj he).2).2) (List.mem_append_left _ hcall)
  · have hstep : DiscoService.step (g.hosts i) dht (s.server i) (.dhtValueCallback g.key value false) = s.server i := by
      rw [DiscoService.step, if_neg hlistens]
    have hchanges : Changes g i (s.server i).dbase (s.server i).dbase :=
      ⟨fun _ => id, id, fun _ => Or.inl, fun _ => Or.inl, fun _ => Or.inl, fun _ => Or.inl⟩
    have hputs : (s.serve dht i (.dhtValueCallback g.key value false)).puts = s.puts :=
      congrArg (fun t : DiscoService => t.dbase.puts) hstep
    have hserver : (s.serve dht i (.dhtValueCallback g.key value false)).servers i = s.server i :=
      (serve_servers_self ..).trans hstep
    refine h.of_serve_members (by rw [hstep]; exact hchanges) (by rw [hstep]; exact h.server i) rfl rfl
      (fun j hj p => hcalls j p fun he => hj (Prod.mk.inj he).1) rfl (fun p => by rw [hputs]) ?_ ?_ ?_
    · rw [hserver]
      exact id
    · rw [hserver]
    · rintro m rfl hm
      exact absurd (h.listed m hm).1 hlistens

/-- A membership other than the one that is set was there before. -/
theorem get?_members_of_set {members : Dict (Member g) Membership} {m m' : Member g} {status status' : Membership}
    (h : (members.set m status).get? m' = some status') (hne : status ≠ status') : members.get? m' = some status' := by
  rcases Dict.get?_set_eq_some.mp h with ⟨-, heq⟩ | ⟨-, hold⟩
  · exact absurd heq.symm hne
  · exact hold

/-- A part looks the group up. -/
theorem Inv.lookup (h : Inv s) (m : Member g) :
    Inv { s.serve dht m.host (.request m.lookupReq 0) with members := s.members.set m .looking } := by
  obtain ⟨enrolled, sockets, hstep, hsockets⟩ := step_lookupReq (m := m) (h.server m.host) dht h.addresses rfl
  have hputs : (s.serve dht m.host (.request m.lookupReq 0)).puts = s.puts :=
    congrArg (fun t : DiscoService => t.dbase.puts) hstep
  have hserver : (s.serve dht m.host (.request m.lookupReq 0)).servers m.host = _ :=
    (serve_servers_self ..).trans hstep
  have hjoined : ∀ m' port, (s.members.set m .looking).get? m' = some (.joined port) →
      s.members.get? m' = some (.joined port) := fun m' port hm' => get?_members_of_set hm' nofun
  have hholds : ∀ m' port, ((s.members.set m .looking).get? m' = some (.joined port) ∨
      (s.members.set m .looking).get? m' = some (.leaving port)) → s.Holds m' port :=
    fun m' port => Or.imp (hjoined m' port) fun hm' => get?_members_of_set hm' nofun
  have hchanges := changes_fetch dht m (s.server m.host).dbase
  refine h.of_serve (by rw [hstep]; exact hchanges) ?_ rfl rfl (fun _ _ _ => id)
    (fun m' port hm' => hputs.symm ▸ h.put m' port (hholds m' port hm'))
    (fun m' m'' port hm' hm'' => h.distinct m' m'' port (hholds m' port hm') (hholds m'' port hm''))
    (fun m' port hm' => hputs.symm ▸ h.unmarked m' port (hjoined m' port hm')) ?_ ?_
  · rw [hstep]
    exact (h.server m.host).step hchanges (h.servers m.host).exc rfl (fun _ => id)
      fun k hk => Dict.mem_set.mpr (Or.inr hk)
  · rintro m' hne ⟨status, hm', hlistens⟩
    rcases Dict.get?_set_eq_some.mp hm' with ⟨rfl, -⟩ | ⟨-, hold⟩
    · exact absurd rfl hne
    · exact ⟨⟨status, hold, hlistens⟩, fun m'' port hm'' => Or.inl (hjoined m'' port hm'')⟩
  · rintro m' hhost ⟨status, hm', hlistens⟩
    dsimp only
    rw [hserver]
    refine ⟨⟨(DhtDbase.mem_listeners_fetch dht ..).mpr (Or.inl rfl), ?_⟩, fun m'' port hm'' => ?_⟩
    · rcases Dict.get?_set_eq_some.mp hm' with ⟨rfl, -⟩ | ⟨-, hold⟩
      · exact (DhtDbase.mem_clientsOf_fetch dht ..).mpr (Or.inl rfl)
      · refine (DhtDbase.mem_clientsOf_fetch dht ..).mpr (Or.inr ?_)
        exact hhost ▸ (h.listed m' ⟨status, hold, hlistens⟩).2
    · have hold'' := hjoined m'' port hm''
      rcases Dict.get?_set_eq_some.mp hm' with ⟨rfl, -⟩ | ⟨hne, hold⟩
      · -- the reply has every address that is there
        refine Or.inl fun sock _ => ?_
        rw [hserver, received_concat, receive, if_pos ⟨rfl, rfl⟩]
        exact hsockets _ _ ⟨plain_address m''.host port, h.put m'' port (Or.inl hold''), h.unmarked m'' port hold''⟩
      · rcases h.told m' ⟨status, hold, hlistens⟩ m'' port hold'' with hknows | ⟨hne'', hlater⟩
        · refine Or.inl (hknows.mono (by rw [hhost, hserver]; rfl) fun sock socket hmem => ?_)
          rw [hhost, hserver, received_concat, receive, if_neg fun he => hne (clientString_inj hhost he.2.symm)]
          rw [hhost] at hmem
          exact hmem
        · refine Or.inr ⟨hne'', hlater.imp (fun hwait => ?_) fun hcall => List.mem_append_left _ hcall⟩
          rw [hhost, hserver]
          rw [hhost] at hwait
          exact hwait

/-- A registration puts the address. -/
theorem puts_regReq {m : Member g} {port : Int32} (hfresh : (g.key, socketValue (g.address m.host port)) ∉ s.puts)
    (hdbase : (DiscoService.step (g.hosts m.host) dht (s.server m.host) (.request (m.regReq port) 0)).dbase =
      ((s.server m.host).dbase.insert dht g.key (socketValue (g.address m.host port))).1) :
    (s.serve dht m.host (.request (m.regReq port) 0)).puts =
      s.puts ++ [(g.key, socketValue (g.address m.host port))] := by
  show (DiscoService.step (g.hosts m.host) dht (s.server m.host) _).dbase.puts = _
  rw [hdbase, DhtDbase.insert, if_neg fun hmem => hfresh (DhtDbase.mem_dhtGet.mp hmem)]
  rfl

/-- The hosts that listen are called for it. -/
theorem mem_calls_of_puts {i j : Fin n} {e : DiscoService.Event} {value : Text}
    (hputs : (s.serve dht i e).puts = s.puts ++ [(g.key, value)]) (hj : g.key ∈ (s.servers j).dbase.listeners) :
    (j, g.key, value) ∈ (s.serve dht i e).calls := by
  refine List.mem_append_right _ (List.mem_flatMap.mpr ⟨_, ?_, mem_callsFor.mpr ⟨rfl, hj⟩⟩)
  show _ ∈ List.drop s.puts.length (s.serve dht i e).puts
  rw [hputs, List.drop_left]
  exact List.mem_singleton_self _

/-- An address that was not put has no mark. -/
theorem Inv.unmarked_of_fresh (h : Inv s) {i : Fin n} {port : Int32}
    (hfresh : (g.key, socketValue (g.address i port)) ∉ s.puts) :
    (g.key, delValue (socketValue (g.address i port))) ∉ s.puts := by
  intro hmark
  obtain ⟨-, j, port', hval | ⟨hval, hput⟩⟩ := h.addresses _ hmark
  · exact (plain_address j port').ne_delValue hval.symm
  · rw [← (List.cons.inj hval).2] at hput
    exact hfresh hput

/-- A part registers its publisher, at an address that was not put before. -/
theorem Inv.register (h : Inv s) {m : Member g} (hm : s.members.get? m = some .looking) {port : Int32}
    (hfresh : (g.key, socketValue (g.address m.host port)) ∉ s.puts) :
    Inv { s.serve dht m.host (.request (m.regReq port) 0) with members := s.members.set m (.joined port) } := by
  obtain ⟨registered, upds, hexc, hupd, hsent⟩ := step_regReq (m := m) (h.server m.host) dht rfl hfresh
  have hdbase := hupd.dbase
  dsimp only at hdbase
  have hputs := puts_regReq hfresh hdbase
  have hserver : (s.serve dht m.host (.request (m.regReq port) 0)).servers m.host = _ := serve_servers_self ..
  have hholds : ∀ m' port', ((s.members.set m (.joined port)).get? m' = some (.joined port') ∨
      (s.members.set m (.joined port)).get? m' = some (.leaving port')) →
      m' = m ∧ port' = port ∨ m' ≠ m ∧ s.Holds m' port' := by
    rintro m' port' (hm' | hm')
    · rcases Dict.get?_set_eq_some.mp hm' with ⟨rfl, heq⟩ | ⟨hne, hold⟩
      · exact Or.inl ⟨rfl, Membership.joined.inj heq⟩
      · exact Or.inr ⟨hne, Or.inl hold⟩
    · rcases Dict.get?_set_eq_some.mp hm' with ⟨-, heq⟩ | ⟨hne, hold⟩
      · cases heq
      · exact Or.inr ⟨hne, Or.inr hold⟩
  have hlistens : ∀ m' status, (s.members.set m (.joined port)).get? m' = some status → status.listens = true →
      s.Listens m' := by
    intro m' status hm' hstatus
    rcases Dict.get?_set_eq_some.mp hm' with ⟨rfl, -⟩ | ⟨-, hold⟩
    · exact ⟨_, hm, rfl⟩
    · exact ⟨status, hold, hstatus⟩
  have hchanges := changes_insert (g := g) dht m.host port (s.server m.host).dbase
  have hstep : Changes g m.host (s.server m.host).dbase
      (DiscoService.step (g.hosts m.host) dht (s.server m.host) (.request (m.regReq port) 0)).dbase := by
    rw [hdbase]
    exact hchanges
  refine h.of_serve hstep ?_ rfl rfl (fun _ _ _ => id) ?_ ?_ ?_ ?_ ?_
  · refine (h.server m.host).step hstep hexc hupd.clients (fun k hk => ?_) fun k hk => ?_
    · rw [hupd.registrations]
      exact Dict.mem_set.mpr (Or.inr hk)
    · rw [hupd.enrollments]
      exact hk
  · intro m' port' hm'
    show _ ∈ (s.serve dht m.host (.request (m.regReq port) 0)).puts
    rw [hputs, List.mem_append, List.mem_singleton]
    rcases hholds m' port' hm' with ⟨rfl, rfl⟩ | ⟨-, hold⟩
    · exact Or.inr rfl
    · exact Or.inl (h.put m' port' hold)
  · intro m' m'' port' hm' hm'' hhost
    rcases hholds m' port' hm' with ⟨rfl, rfl⟩ | ⟨-, hold'⟩
    · rcases hholds m'' port' hm'' with ⟨rfl, -⟩ | ⟨-, hold''⟩
      · rfl
      · exact absurd (hhost ▸ h.put m'' port' hold'') hfresh
    · rcases hholds m'' port' hm'' with ⟨rfl, rfl⟩ | ⟨-, hold''⟩
      · exact absurd (hhost ▸ h.put m' port' hold') hfresh
      · exact h.distinct m' m'' port' hold' hold'' hhost
  · intro m' port' hm'
    show _ ∉ (s.serve dht m.host (.request (m.regReq port) 0)).puts
    rw [hputs, List.mem_append, List.mem_singleton, not_or]
    refine ⟨fun hmark => ?_, fun heq => (plain_address m.host port).ne_delValue (Prod.mk.inj heq).2.symm⟩
    rcases Dict.get?_set_eq_some.mp hm' with ⟨rfl, heq⟩ | ⟨-, hold⟩
    · obtain rfl := Membership.joined.inj heq
      exact h.unmarked_of_fresh hfresh hmark
    · exact h.unmarked m' port' hold hmark
  · rintro m' hne ⟨status, hm', hstatus⟩
    have hold := hlistens m' status hm' hstatus
    refine ⟨hold, fun m'' port' hm'' => ?_⟩
    rcases Dict.get?_set_eq_some.mp hm'' with ⟨rfl, heq⟩ | ⟨-, hold''⟩
    · obtain rfl := Membership.joined.inj heq
      exact Or.inr ⟨mem_calls_of_puts hputs (h.listed m' hold).1, rfl⟩
    · exact Or.inl hold''
  · rintro m' hhost ⟨status, hm', hstatus⟩
    have hold := hlistens m' status hm' hstatus
    have hlisted := h.listed m' hold
    rw [hhost] at hlisted
    dsimp only
    rw [hserver, hdbase, DhtDbase.insert_listeners, DhtDbase.clientsOf_insert]
    refine ⟨hlisted, fun m'' port' hm'' => ?_⟩
    have hclients : ((s.serve dht m.host (.request (m.regReq port) 0)).servers m'.host).clients =
        (s.servers m'.host).clients := by
      rw [hhost, hserver, hupd.clients]
      rfl
    rcases Dict.get?_set_eq_some.mp hm'' with ⟨rfl, heq⟩ | ⟨-, hold''⟩
    · -- its own server sends the address to all clients of the key
      obtain rfl := Membership.joined.inj heq
      refine Or.inl fun sock hsock => ?_
      rw [hclients, hhost] at hsock
      rw [hhost, hserver]
      exact hsent m' hhost hlisted.2 sock hsock
    · rcases h.told m' hold m'' port' hold'' with hknows | ⟨hne, hlater⟩
      · refine Or.inl (hknows.mono hclients fun sock socket hmem => ?_)
        rw [hhost] at hmem
        rw [hhost, hserver]
        refine hupd.mem_received ?_
        rw [received_concat]
        exact hmem
      · refine Or.inr ⟨hne, hlater.imp (fun hwait => ?_) fun hcall => List.mem_append_left _ hcall⟩
        rw [hhost] at hwait
        rw [hhost, hserver, hdbase, DhtDbase.insert_updates]
        exact hwait

/-- A part that leaves takes its lookup back, when no other one on its host needs the listener. -/
theorem Inv.unlookup (h : Inv s) {m : Member g} {port : Int32} (hm : s.members.get? m = some (.joined port))
    (honly : ∀ i ∈ s.members.items, i.1.host = m.host → i.1 = m ∨ i.2.listens = false) :
    Inv { s.serve dht m.host (.request m.unlookupReq 0) with members := s.members.set m (.leaving port) } := by
  obtain ⟨enrolled, hstep⟩ := step_unlookupReq (m := m) (h.server m.host) dht rfl
  have hputs : (s.serve dht m.host (.request m.unlookupReq 0)).puts = s.puts :=
    (congrArg (fun t : DiscoService => t.dbase.puts) hstep).trans (DhtDbase.detach_puts ..)
  have hjoined : ∀ m' port', (s.members.set m (.leaving port)).get? m' = some (.joined port') →
      s.members.get? m' = some (.joined port') := fun m' port' hm' => get?_members_of_set hm' nofun
  have hholds : ∀ m' port', ((s.members.set m (.leaving port)).get? m' = some (.joined port') ∨
      (s.members.set m (.leaving port)).get? m' = some (.leaving port')) → s.Holds m' port' := by
    rintro m' port' (hm' | hm')
    · exact Or.inl (hjoined m' port' hm')
    · rcases Dict.get?_set_eq_some.mp hm' with ⟨rfl, heq⟩ | ⟨-, hold⟩
      · obtain rfl := Membership.leaving.inj heq
        exact Or.inl hm
      · exact Or.inr hold
  have hchanges := changes_detach (g := g) m.host m.clientString (s.server m.host).dbase
  refine h.of_serve (by rw [hstep]; exact hchanges) ?_ rfl rfl (fun _ _ _ => id)
    (fun m' port' hm' => hputs.symm ▸ h.put m' port' (hholds m' port' hm'))
    (fun m' m'' port' hm' hm'' => h.distinct m' m'' port' (hholds m' port' hm') (hholds m'' port' hm''))
    (fun m' port' hm' => hputs.symm ▸ h.unmarked m' port' (hjoined m' port' hm')) ?_ ?_
  · rw [hstep]
    exact (h.server m.host).step hchanges (h.servers m.host).exc rfl (fun _ => id)
      fun k hk => Dict.mem_set.mpr (Or.inr hk)
  · rintro m' hne ⟨status, hm', hlistens⟩
    rcases Dict.get?_set_eq_some.mp hm' with ⟨rfl, -⟩ | ⟨-, hold⟩
    · exact absurd rfl hne
    · exact ⟨⟨status, hold, hlistens⟩, fun m'' port' hm'' => Or.inl (hjoined m'' port' hm'')⟩
  · -- no other part of the host listens
    rintro m' hhost ⟨status, hm', hlistens⟩
    exfalso
    rcases Dict.get?_set_eq_some.mp hm' with ⟨-, rfl⟩ | ⟨hne, hold⟩
    · cases hlistens
    · rcases honly _ (Dict.get?_eq_some_iff.mp hold) hhost with heq | hno
      · exact hne heq
      · rw [hlistens] at hno
        cases hno

/-- And it takes its registration back. -/
theorem Inv.unregister (h : Inv s) {m : Member g} {port : Int32} (hm : s.members.get? m = some (.leaving port)) :
    Inv { s.serve dht m.host (.request (m.unregReq port) 0) with members := s.members.del m } := by
  obtain ⟨registered, hstep⟩ := step_unregReq (m := m) (h.server m.host) dht rfl port
  have hserver : (s.serve dht m.host (.request (m.unregReq port) 0)).servers m.host = _ :=
    (serve_servers_self ..).trans hstep
  have hput : ∀ p, p ∈ (s.serve dht m.host (.request (m.unregReq port) 0)).puts ↔
      p ∈ s.puts ∨ p = (g.key, delValue (socketValue (g.address m.host port))) ∧
        (g.key, socketValue (g.address m.host port)) ∈ s.puts := by
    intro p
    show p ∈ (DiscoService.step (g.hosts m.host) dht (s.server m.host) _).dbase.puts ↔ _
    rw [hstep]
    exact DhtDbase.mem_remove_puts ..
  have hget : ∀ m' status, (s.members.del m).get? m' = some status → m' ≠ m ∧ s.members.get? m' = some status := by
    intro m' status hm'
    rw [Dict.get?_del] at hm'
    split_ifs at hm' with heq
    exact ⟨heq, hm'⟩
  have hholds : ∀ m' port', ((s.members.del m).get? m' = some (.joined port') ∨
      (s.members.del m).get? m' = some (.leaving port')) → s.Holds m' port' :=
    fun m' port' => Or.imp (fun hm' => (hget m' _ hm').2) fun hm' => (hget m' _ hm').2
  have hchanges := changes_remove (g := g) dht m.host port (s.server m.host).dbase
  refine h.of_serve (by rw [hstep]; exact hchanges) ?_ rfl rfl (fun _ _ _ => id)
    (fun m' port' hm' => (hput _).mpr (Or.inl (h.put m' port' (hholds m' port' hm'))))
    (fun m' m'' port' hm' hm'' => h.distinct m' m'' port' (hholds m' port' hm') (hholds m'' port' hm'')) ?_ ?_ ?_
  · rw [hstep]
    exact (h.server m.host).step hchanges (h.servers m.host).exc rfl (fun k hk => Dict.mem_set.mpr (Or.inr hk))
      fun _ => id
  · intro m' port' hm' hmark
    obtain ⟨hne, hold⟩ := hget m' _ hm'
    rcases (hput _).mp hmark with hmark | ⟨heq, -⟩
    · exact h.unmarked m' port' hold hmark
    · -- the address is of no other part
      obtain ⟨hhost, rfl⟩ := address_inj (List.cons.inj (Prod.mk.inj heq).2).2
      exact hne (h.distinct m' m port' (Or.inl hold) (Or.inr hm) hhost)
  · rintro m' - ⟨status, hm', hlistens⟩
    exact ⟨⟨status, (hget m' _ hm').2, hlistens⟩, fun m'' port' hm'' => Or.inl (hget m'' _ hm'').2⟩
  · rintro m' hhost ⟨status, hm', hlistens⟩
    have hold : s.Listens m' := ⟨status, (hget m' _ hm').2, hlistens⟩
    have hlisted := h.listed m' hold
    rw [hhost] at hlisted
    dsimp only
    rw [hserver]
    refine ⟨?_, fun m'' port' hm'' => ?_⟩
    · dsimp only
      rw [DhtDbase.remove_listeners, DhtDbase.clientsOf_remove]
      exact hlisted
    · rcases h.told m' hold m'' port' (hget m'' _ hm'').2 with hknows | ⟨hne, hlater⟩
      · refine Or.inl (hknows.mono (by rw [hhost, hserver]; rfl) fun sock socket hmem => ?_)
        rw [hhost] at hmem
        rw [hhost, hserver, received_concat]
        exact hmem
      · refine Or.inr ⟨hne, hlater.imp (fun hwait => ?_) fun hcall => List.mem_append_left _ hcall⟩
        rw [hhost] at hwait
        rw [hhost, hserver]
        dsimp only
        rw [DhtDbase.remove_updates]
        exact hwait

/-! ### Runs -/

/-- The actors of a host are registered one after the other. -/
theorem server_run (g : GroupInstance n) (dht : Dht) (i : Fin n) {actors : List (Text × ℕ)}
    (hslash : ∀ a ∈ actors, '/' ∉ a.1) {s : DiscoService} (hexc : s.exc = none) :
    let s' := run (DiscoService.step (g.hosts i) dht) s
      (actors.map fun a => .request (g.actor i a.1).registerActor a.2)
    s'.exc = none ∧ s'.dbase = s.dbase ∧
      ∀ a, a ∈ actors.map Prod.fst ∨
          (∃ sock, s.clients.get? (clientKeyBase g.appName a) = some (.sock sock)) ∧
            appActorName g.appName a ∈ s.registrations ∧ appActorName g.appName a ∈ s.enrollments →
        (∃ sock, s'.clients.get? (clientKeyBase g.appName a) = some (.sock sock)) ∧
          appActorName g.appName a ∈ s'.registrations ∧ appActorName g.appName a ∈ s'.enrollments := by
  induction actors generalizing s with
  | nil => exact ⟨hexc, rfl, fun a ha => ha.resolve_left List.not_mem_nil⟩
  | cons b actors ih =>
    obtain ⟨hb, hactors⟩ := List.forall_mem_cons.mp hslash
    have hstep : DiscoService.step (g.hosts i) dht s (.request (g.actor i b.1).registerActor b.2) =
        DiscoService.handleActorReg (g.hosts i) g.appName b.1 false b.2 { s with clientUpdates := [] } :=
      step_request (g.hosts i) dht _ b.2 hexc rfl
    rw [List.map_cons, run_cons, hstep]
    obtain ⟨hexc', hdbase, hsetup⟩ :=
      ih hactors
        (s := DiscoService.handleActorReg (g.hosts i) g.appName b.1 false b.2 { s with clientUpdates := [] }) hexc
    refine ⟨hexc', hdbase, fun a ha => hsetup a ?_⟩
    rw [List.map_cons, List.mem_cons, or_assoc, or_left_comm] at ha
    refine ha.imp_right fun ha => ⟨?_, ?_, ?_⟩
    · rw [clientKeyBase_eq]
      show ∃ sock, (DiscoService.setupClient (g.hosts i) g.appName b.1 false b.2 _).clients.get? _ = _
      rw [get?_setupClient g.slash_appName hb]
      split_ifs with hkey
      · exact ⟨b.2, rfl⟩
      · rw [← clientKeyBase_eq]
        exact (ha.resolve_left fun he => hkey (he ▸ rfl)).1
    · show appActorName g.appName a ∈ s.registrations.set (appActorName g.appName b.1) []
      exact Dict.mem_set.mpr (ha.imp (congrArg _) fun h => h.2.1)
    · show appActorName g.appName a ∈ s.enrollments.set (appActorName g.appName b.1) []
      exact Dict.mem_set.mpr (ha.imp (congrArg _) fun h => h.2.2)

theorem Inv.init (g : GroupInstance n) (dht : Dht) : Inv (init dht g) where
  servers i := by
    obtain ⟨hexc, hdbase, hsetup⟩ := server_run g dht i (g.slash_actors i) (s := .init) rfl
    replace hdbase : ((GroupNet.init dht g).servers i).dbase = .init := hdbase
    exact
      { exc := hexc
        socks := fun a ha => (hsetup a (Or.inl ha)).1
        registrations := fun a ha => (hsetup a (Or.inl ha)).2.1
        enrollments := fun a ha => (hsetup a (Or.inl ha)).2.2
        republished := fun p hp => absurd (hdbase ▸ hp) (by simp [DhtDbase.init, Republisher.init])
        deleted := fun v hv => absurd (hdbase ▸ hv) (by simp [DhtDbase.init])
        updates := fun u hu => absurd (hdbase ▸ hu) (by simp [DhtDbase.init])
        clients := fun c hc => absurd (hdbase ▸ hc) (by simp [DhtDbase.clientsOf, DhtDbase.init]) }
  addresses p hp := absurd hp List.not_mem_nil
  put m port hm := by rcases hm with hm | hm <;> simp [GroupNet.init] at hm
  distinct m m' port hm := by rcases hm with hm | hm <;> simp [GroupNet.init] at hm
  unmarked m port hm := by simp [GroupNet.init] at hm
  listed m := by
    rintro ⟨status, hm, -⟩
    simp [GroupNet.init] at hm
  told m := by
    rintro ⟨status, hm, -⟩
    simp [GroupNet.init] at hm

theorem Inv.step (h : Inv s) {e : Event g} (hund : Undisturbed s e) : Inv (step dht s e) := by
  cases e with
  | lookup m =>
    rw [GroupNet.step]
    split_ifs
    · exact h
    · exact h.lookup m
  | register m port =>
    rw [GroupNet.step]
    split_ifs with hm
    · exact h.register hm.1 hm.2
    · exact h
  | unlookup m =>
    rw [GroupNet.step]
    split
    · rename_i port hm
      exact h.unlookup hm hund
    · exact h
  | unregister m =>
    rw [GroupNet.step]
    split
    · rename_i port hm
      exact h.unregister hm
    · exact h
  | dhtValueCallback i value =>
    rw [GroupNet.step]
    split_ifs with hput
    · exact h.dhtValueCallback i hput hund
    · exact h
  | timeout i => exact h.timeout i
  | dhtRepublish i event => exact h.dhtRepublish i event

/-- **The members of a group find each other**: in a run whose events are all undisturbed, whenever all is handled
each member has been sent the address of each. -/
theorem discovered_run (g : GroupInstance n) (dht : Dht) (events : List (Event g))
    (hund : AllSteps (step dht) Undisturbed (init dht g) events)
    (hquiet : Quiet (run (step dht) (init dht g) events)) : Discovered (run (step dht) (init dht g) events) :=
  (hund.inv (fun _ _ h => h.step) (Inv.init g dht)).discovered hquiet

/-! ### Two hosts -/

/-- A second host. -/
def host₂ : Host where
  hostAddress := ['k']
  macAddress := ['l']
  slash_hostAddress := by decide
  slash_macAddress := by decide
  hostAddress_ne := by decide
  macAddress_ne := by decide

/-- A group with an actor on each of two hosts. -/
def group₁ : GroupInstance 2 where
  hosts i := if i = 0 then host₁ else host₂
  appName := ['a']
  actors i := if i = 0 then [(['x'], 1)] else [(['y'], 2)]
  groupType := ['g']
  groupName := ['n']
  messageType := ['t']
  portName := ['g', '.', 'n']
  hosts_inj := by decide
  colon_hosts := by decide
  dash_hosts := by decide
  slash_appName := by decide
  slash_actors := by decide
  slash_portName := by decide
  colon_portName := by decide

/-- Two parts of the one actor, -/
def x₁ : Member group₁ := ⟨0, ['x'], ['i'], by decide, by decide⟩

def x₂ : Member group₁ := ⟨0, ['x'], ['j'], by decide, by decide⟩

/-- and two of the other. -/
def y₁ : Member group₁ := ⟨1, ['y'], ['i'], by decide, by decide⟩

def y₂ : Member group₁ := ⟨1, ['y'], ['j'], by decide, by decide⟩

/-- Two parts join, on two hosts; the first leaves, and comes back at another address. -/
def rejoining : List (Event group₁) :=
  [.lookup x₁, .register x₁ 5, .dhtValueCallback 0 ['h', ':', '5'], .lookup y₁, .register y₁ 7,
    .dhtValueCallback 0 ['k', ':', '7'], .dhtValueCallback 1 ['k', ':', '7'], .timeout 0, .unlookup x₁, .unregister x₁,
    .dhtValueCallback 1 ['-', 'h', ':', '5'], .lookup x₁, .register x₁ 6, .dhtValueCallback 0 ['h', ':', '6'],
    .dhtValueCallback 1 ['h', ':', '6'], .timeout 1]

theorem discovered_rejoining :
    AllSteps (step .inOrder) Undisturbed (init .inOrder group₁) rejoining ∧
      Quiet (run (step .inOrder) (init .inOrder group₁) rejoining) ∧
      Discovered (run (step .inOrder) (init .inOrder group₁) rejoining) :=
  have hund : AllSteps (step .inOrder) Undisturbed (init .inOrder group₁) rejoining := by decide +kernel
  have hquiet : Quiet (run (step .inOrder) (init .inOrder group₁) rejoining) := by decide +kernel
  ⟨hund, hquiet, discovered_run group₁ .inOrder rejoining hund hquiet⟩

/-- Two parts of one host join, the second leaves, and then one of the other host joins. -/
def leaving : List (Event group₁) :=
  [.lookup x₁, .register x₁ 5, .dhtValueCallback 0 ['h', ':', '5'], .lookup x₂, .register x₂ 6,
    .dhtValueCallback 0 ['h', ':', '6'], .unlookup x₂, .unregister x₂, .lookup y₁, .register y₁ 7,
    .dhtValueCallback 1 ['k', ':', '7']]

/-- A part of one host joins, then one of the other, and before this is told of, one that left before has its mark
put. -/
def marking : List (Event group₁) :=
  [.lookup x₁, .register x₁ 5, .dhtValueCallback 0 ['h', ':', '5'], .lookup y₂, .register y₂ 8,
    .dhtValueCallback 0 ['k', ':', '8'], .dhtValueCallback 1 ['k', ':', '8'], .timeout 0, .unlookup y₂, .lookup y₁,
    .register y₁ 7, .unregister y₂, .dhtValueCallback 0 ['k', ':', '7'], .dhtValueCallback 0 ['-', 'k', ':', '8'],
    .dhtValueCallback 1 ['k', ':', '7'], .dhtValueCallback 1 ['-', 'k', ':', '8'], .timeout 0]

/-- The first part is not told of the last one: its listener was cancelled, or the update was dropped. -/
theorem not_discovered_leaving :
    (Quiet (run (step .inOrder) (init .inOrder group₁) leaving) ∧
        ¬ Discovered (run (step .inOrder) (init .inOrder group₁) leaving)) ∧
      Quiet (run (step .inOrder) (init .inOrder group₁) marking) ∧
        ¬ Discovered (run (step .inOrder) (init .inOrder group₁) marking) := by
  have hlost : ∀ events ∈ [leaving, marking],
      (run (step .inOrder) (init .inOrder group₁) events).members.get? x₁ = some (.joined 5) ∧
      (run (step .inOrder) (init .inOrder group₁) events).members.get? y₁ = some (.joined 7) ∧
      ((run (step .inOrder) (init .inOrder group₁) events).servers x₁.host).clients.get?
        (clientKeyBase group₁.appName x₁.actorName) = some (.sock 1) ∧
      group₁.address y₁.host 7 ∉ received 1 group₁.key x₁.clientString x₁.client
        ((run (step .inOrder) (init .inOrder group₁) events).servers x₁.host).sent := by
    decide +kernel
  have hnot : ∀ events ∈ [leaving, marking], ¬ Discovered (run (step .inOrder) (init .inOrder group₁) events) := by
    intro events hevents hall
    obtain ⟨hx, hy, hsock, hno⟩ := hlost events hevents
    obtain ⟨sock, hget, hmem⟩ := hall x₁ 5 y₁ 7 hx hy
    obtain rfl : 1 = sock := by simpa using hsock.symm.trans hget
    exact hno hmem
  exact ⟨⟨by decide +kernel, hnot _ (by simp)⟩, by decide +kernel, hnot _ (by simp)⟩

end GroupNet

end Riaps.Run
