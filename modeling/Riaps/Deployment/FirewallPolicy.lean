import Riaps.Deployment.Firewall

/-!
# What the firewall lets through

The rules that `setupAppNetwork` adds for the user of an app are looked at in order, and the first
one for the destination of a packet says what becomes of it. If there is none the packet goes
through.

What goes through is what the app may access: its own host, the hosts of the app and the sites that
are listed for all hosts or for this one. A list that is there and is empty is no restriction at all:
`accepts_iff`.
-/

namespace Riaps.Deployment

open Riaps.Foundation

/-! ### Rules in order -/

/-- The rule is for packets of the user to the address. -/
def Rule.Matches (r : Rule) (user address : Text) : Prop :=
  r.user = user ∧ (r.dest = address ∨ r.dest = Launch.anywhere)

instance (r : Rule) (user address : Text) : Decidable (r.Matches user address) :=
  inferInstanceAs (Decidable (_ ∧ _))

/-- What becomes of a packet: the first rule for it says so, and without one it goes through. -/
def verdict (rules : List Rule) (user address : Text) : Target :=
  match rules.find? fun r => r.Matches user address with
  | some r => r.target
  | none => .accept

namespace Launch

/-- `'dns'`, which stands for the DNS servers. -/
def dnsSite : Text := ['d', 'n', 's']

variable (l : Launch)

/-- The sites that are listed for all hosts. -/
def globalSites : Option (List Text) := (l.network.get? ['[', ']']).join

/-- Those of this host. -/
def ownSites (cfg : SecurityConfig) : Option (List Text) := (l.network.get? cfg.hostAddress).join

/-- The addresses of a site. -/
def addresses (site : Text) : List Text :=
  if site = dnsSite then l.dns.getD [] else (l.gethostbyname site).toList

/-- The addresses of the sites of a list, if there is one. -/
def listed (sites : Option (List Text)) : List Text := (sites.getD []).flatMap l.addresses

/-- A name has an address, and the DNS servers are known and are addresses. -/
structure Resolves (site : Text) : Prop where
  name : site ≠ dnsSite → (l.gethostbyname site).isSome
  dns : site = dnsSite → ∃ ips, l.dns = some ips ∧ ∀ ip ∈ ips, l.gethostbyname ip = some ip

/-- What the names resolve to: an address to itself, a name that is used to some address, and none to a network. -/
structure Resolver (cfg : SecurityConfig) : Prop where
  localhost : l.gethostbyname localhost = some localhost
  hosts : ∀ site ∈ l.hosts.getD [], l.Resolves site
  globalSites : ∀ site ∈ l.globalSites.getD [], l.Resolves site
  ownSites : l.globalSites ≠ some [] → ∀ site ∈ (l.ownSites cfg).getD [], l.Resolves site
  address : ∀ site address, l.gethostbyname site = some address → address ≠ anywhere

/-! ### The rules that are added -/

/-- The rules are added, with a value and no exception. -/
def Adds {α : Type} (x : Setup α) (a : α) (rules : List Rule) : Prop :=
  ∀ firewall, Ends x firewall (fun b t => b = a ∧ t = firewall ++ rules) fun _ _ => False

/-- One computation after another. -/
theorem Adds.bind {α β : Type} {x : Setup α} {f : α → Setup β} {a : α} {b : β} {rules rules' : List Rule}
    (hx : Adds x a rules) (hf : Adds (f a) b rules') : Adds (x >>= f) b (rules ++ rules') := by
  intro firewall
  rw [ends_bind]
  refine (hx firewall).mono ?_ fun _ _ h => h
  rintro _ _ ⟨rfl, rfl⟩
  rw [← List.append_assoc]
  exact hf _

theorem Adds.pure {α : Type} (a : α) : Adds (pure a) a [] := by
  intro firewall
  rw [ends_pure, List.append_nil]
  exact ⟨rfl, rfl⟩

theorem Adds.found {α : Type} {o : Option α} {a : α} (h : o = some a) : Adds (found ⟨⟩ o) a [] := by
  subst h
  exact Adds.pure a

theorem Adds.modify (rules : List Rule) : Adds (modify fun firewall => firewall ++ rules) ⟨⟩ rules :=
  fun _ => ⟨rfl, rfl⟩

/-- A loop adds what its rounds do. -/
theorem Adds.forM {α : Type} {f : α → Setup PUnit} {g : α → List Rule} {as : List α}
    (hf : ∀ a ∈ as, Adds (f a) ⟨⟩ (g a)) : Adds (as.forM f) ⟨⟩ (as.flatMap g) := by
  induction as with
  | nil => exact Adds.pure _
  | cons a as ih => exact (hf a List.mem_cons_self).bind (ih fun b hb => hf b (List.mem_cons_of_mem a hb))

variable {l}

theorem adds_setupAppSite {site address : Text} (h : l.gethostbyname site = some address) :
    Adds (l.setupAppSite site) ⟨⟩ [l.hostRule address] :=
  (Adds.found h).bind (f := fun host => modify fun firewall => firewall ++ [l.hostRule host]) (Adds.modify _)

theorem adds_setupAppDNS {ips : List Text} (hdns : l.dns = some ips)
    (hips : ∀ ip ∈ ips, l.gethostbyname ip = some ip) : Adds l.setupAppDNS ⟨⟩ (ips.map l.hostRule) := by
  have hloop : Adds (ips.forM l.setupAppSite) ⟨⟩ (ips.flatMap fun ip => [l.hostRule ip]) :=
    Adds.forM fun ip hip => adds_setupAppSite (hips ip hip)
  rw [← List.map_eq_flatMap] at hloop
  exact (Adds.found hdns).bind (f := fun ips => ips.forM l.setupAppSite) hloop

/-- A site gets a rule for each of its addresses. -/
theorem adds_site {site : Text} (h : l.Resolves site) :
    Adds (if site = ['d', 'n', 's'] then l.setupAppDNS else l.setupAppSite site) ⟨⟩
      ((l.addresses site).map l.hostRule) := by
  rw [addresses, dnsSite]
  by_cases hsite : site = ['d', 'n', 's']
  · obtain ⟨ips, hdns, hips⟩ := h.dns hsite
    rw [if_pos hsite, if_pos hsite, hdns]
    exact adds_setupAppDNS hdns hips
  · obtain ⟨address, haddress⟩ := Option.isSome_iff_exists.mp (h.name hsite)
    rw [if_neg hsite, if_neg hsite, haddress]
    exact adds_setupAppSite haddress

/-- The sites of a list get theirs, and a list that is there and is empty gives access to any network. -/
theorem adds_setupAppNetworkSites {sites : Option (List Text)} (h : ∀ site ∈ sites.getD [], l.Resolves site) :
    Adds (l.setupAppNetworkSites sites) (decide (sites = some [])) ((l.listed sites).map l.hostRule) := by
  obtain _ | _ | ⟨site, sites⟩ := sites
  · exact Adds.pure _
  · exact Adds.pure _
  · have hloop := Adds.forM fun s hs => adds_site (h s hs)
    rw [← List.map_flatMap] at hloop
    have hall := hloop.bind (f := fun _ => pure false) (Adds.pure false)
    rw [List.append_nil] at hall
    exact hall

/-- The last rule, if there is one. -/
def lastRule (l : Launch) (cfg : SecurityConfig) : List Rule :=
  if l.globalSites = some [] ∨ l.ownSites cfg = some [] then [] else [⟨anywhere, l.user, .drop⟩]

/-- The addresses that have a rule. -/
def accepted (l : Launch) (cfg : SecurityConfig) : List Text :=
  localhost :: (l.listed l.hosts ++ l.listed l.globalSites ++
    if l.globalSites = some [] then [] else l.listed (l.ownSites cfg))

/-- **The rules of an app**: one for each address that it may access, and a last one for all the others if it
is restricted. -/
theorem adds_setupAppNetwork {cfg : SecurityConfig} (hsecurity : cfg.security = true) (huser : l.user ≠ cfg.targetUser)
    (h : l.Resolver cfg) :
    Adds (l.setupAppNetwork cfg) ⟨⟩ ((l.accepted cfg).map l.hostRule ++ l.lastRule cfg) := by
  have hglobal := adds_setupAppNetworkSites h.globalSites
  rw [setupAppNetwork, if_neg (by simp [hsecurity, huser])]
  have hrest : Adds
      (do
        if ← l.setupAppNetworkSites l.globalSites then pure ⟨⟩
        else if ← l.setupAppNetworkSites (l.ownSites cfg) then pure ⟨⟩
        else modify fun firewall => firewall ++ [⟨anywhere, l.user, .drop⟩] : Setup PUnit) ⟨⟩
      ((l.listed l.globalSites ++ if l.globalSites = some [] then [] else l.listed (l.ownSites cfg)).map l.hostRule ++
        l.lastRule cfg) := by
    rw [List.map_append, List.append_assoc]
    refine hglobal.bind ?_
    by_cases hany : l.globalSites = some []
    · simp only [hany, decide_true, if_true, lastRule, true_or]
      exact Adds.pure _
    · have hown := adds_setupAppNetworkSites (h.ownSites hany)
      simp only [hany, decide_false, Bool.false_eq_true, if_false, lastRule, false_or]
      refine hown.bind ?_
      by_cases hall : l.ownSites cfg = some []
      · simp only [hall, decide_true, if_true]
        exact Adds.pure _
      · simp only [hall, decide_false, Bool.false_eq_true, if_false]
        exact Adds.modify _
  have hhosts := (adds_setupAppNetworkSites h.hosts).bind (f := fun _ => _) hrest
  have hall := (adds_setupAppSite h.localhost).bind (f := fun _ => _) hhosts
  have hrules : (l.accepted cfg).map l.hostRule ++ l.lastRule cfg =
      [l.hostRule localhost] ++ ((l.listed l.hosts).map l.hostRule ++
        ((l.listed l.globalSites ++ if l.globalSites = some [] then [] else l.listed (l.ownSites cfg)).map
          l.hostRule ++ l.lastRule cfg)) := by
    simp [accepted]
  rw [hrules]
  exact hall

/-! ### What goes through -/

/-- The first rule for a packet is one of the address, if there is one, and else the last one. -/
theorem verdict_eq_accept_iff {user address : Text} {addresses : List Text} {last : List Rule}
    (haddresses : anywhere ∉ addresses) (hlast : last = [] ∨ last = [⟨anywhere, user, .drop⟩]) :
    verdict (addresses.map (fun host => ⟨host, user, .accept⟩) ++ last) user address = .accept ↔
      address ∈ addresses ∨ last = [] := by
  induction addresses with
  | nil =>
    rcases hlast with rfl | rfl <;> simp [verdict, Rule.Matches]
  | cons host addresses ih =>
    obtain ⟨hhost, haddresses⟩ := not_or.mp (mt List.mem_cons.mpr haddresses)
    by_cases hmatch : host = address
    · simp [verdict, Rule.Matches, hmatch]
    · have hskip : ¬ Rule.Matches ⟨host, user, .accept⟩ user address := by
        simp [Rule.Matches, hmatch, Ne.symm hhost]
      have hrest : verdict ((host :: addresses).map (fun host => (⟨host, user, .accept⟩ : Rule)) ++ last) user address =
          verdict (addresses.map (fun host => (⟨host, user, .accept⟩ : Rule)) ++ last) user address := by
        unfold verdict
        rw [List.map_cons, List.cons_append, List.find?_cons_of_neg (by simpa using hskip)]
      rw [hrest, ih haddresses, List.mem_cons, or_iff_right (Ne.symm hmatch)]

/-- No site that resolves has a network for its address. -/
theorem anywhere_notMem_listed {cfg : SecurityConfig} (h : l.Resolver cfg) {sites : Option (List Text)}
    (hsites : ∀ site ∈ sites.getD [], l.Resolves site) : anywhere ∉ l.listed sites := by
  rw [listed, List.mem_flatMap]
  rintro ⟨site, hsite, hmem⟩
  rw [addresses] at hmem
  split_ifs at hmem with hdns
  · obtain ⟨ips, hips, hnumeric⟩ := (hsites site hsite).dns hdns
    rw [hips, Option.getD_some] at hmem
    exact h.address anywhere anywhere (hnumeric _ hmem) rfl
  · exact h.address site anywhere (Option.mem_toList.mp hmem) rfl

/-- The address is one of those of the sites of a list, if there is one. -/
def IsListed (l : Launch) (sites : Option (List Text)) (address : Text) : Prop :=
  ∃ list, sites = some list ∧ ∃ site ∈ list, address ∈ l.addresses site

theorem mem_listed {sites : Option (List Text)} {address : Text} :
    address ∈ l.listed sites ↔ l.IsListed sites address := by
  rw [listed, List.mem_flatMap, IsListed]
  cases sites <;> simp

/-- **The firewall policy.** The rules of an app that is run by a user of its own let a packet through to the host
itself, to the hosts of the app and to the sites that are listed for all hosts or for this one, and to any
address if one of these two lists is there and is empty; and they let no other packet through. -/
theorem accepts_iff (l : Launch) (cfg : SecurityConfig) (hsecurity : cfg.security = true)
    (huser : l.user ≠ cfg.targetUser) (h : l.Resolver cfg) (address : Text) :
    ∃ rules, l.setupAppNetwork cfg [] = .ok ⟨⟩ rules ∧
      (verdict rules l.user address = .accept ↔
        address = localhost ∨ l.IsListed l.hosts address ∨ l.IsListed l.globalSites address ∨
          l.IsListed (l.ownSites cfg) address ∨ l.globalSites = some [] ∨ l.ownSites cfg = some []) := by
  have hadds := adds_setupAppNetwork hsecurity huser h []
  rw [Ends] at hadds
  cases hrun : l.setupAppNetwork cfg [] with
  | error e t => simp [hrun] at hadds
  | ok a t =>
    rw [hrun] at hadds
    obtain rfl := hadds.2
    refine ⟨_, rfl, ?_⟩
    have haccepted : anywhere ∉ l.accepted cfg := by
      rw [accepted, List.mem_cons, List.mem_append, List.mem_append]
      rintro (hmem | (hmem | hmem) | hmem)
      · exact h.address _ _ h.localhost hmem.symm
      · exact anywhere_notMem_listed h h.hosts hmem
      · exact anywhere_notMem_listed h h.globalSites hmem
      · split_ifs at hmem with hany
        · exact List.not_mem_nil hmem
        · exact anywhere_notMem_listed h (h.ownSites hany) hmem
    have hlast : l.lastRule cfg = [] ∨ l.lastRule cfg = [⟨anywhere, l.user, .drop⟩] := by
      unfold lastRule
      split_ifs
      exacts [Or.inl rfl, Or.inr rfl]
    have hnone : l.lastRule cfg = [] ↔ l.globalSites = some [] ∨ l.ownSites cfg = some [] := by
      by_cases hany : l.globalSites = some [] ∨ l.ownSites cfg = some []
      · exact iff_of_true (if_pos hany) hany
      · exact iff_of_false (fun hnil => List.cons_ne_nil _ _ ((if_neg hany).symm.trans hnil)) hany
    rw [List.nil_append]
    refine (verdict_eq_accept_iff haccepted hlast).trans ?_
    rw [hnone, accepted, List.mem_cons, List.mem_append, List.mem_append, mem_listed, mem_listed]
    by_cases hany : l.globalSites = some []
    · simp [hany]
    · rw [if_neg hany, mem_listed]
      simp only [or_assoc]

/-- An app with one host and a site for all hosts. -/
def oneHost : Launch where
  ready := true
  user := ['u']
  hosts := some [['a']]
  network := Dict.empty.set ['[', ']'] (some [['b'], dnsSite])
  gethostbyname name := if name = ['b'] then some ['2'] else if name = anywhere then none else some name
  dns := some [['9']]
  pid := some 1

theorem resolver_oneHost : oneHost.Resolver ⟨true, ['t'], ['h']⟩ where
  localhost := by decide
  hosts := by
    intro site hsite
    obtain rfl := List.mem_singleton.mp hsite
    exact ⟨fun _ => rfl, fun he => absurd he (by decide)⟩
  globalSites := by
    intro site hsite
    change site ∈ [['b'], dnsSite] at hsite
    rcases List.mem_pair.mp hsite with rfl | rfl
    · exact ⟨fun _ => rfl, fun he => absurd he (by decide)⟩
    · refine ⟨fun he => absurd rfl he, fun _ => ⟨_, rfl, fun ip hip => ?_⟩⟩
      obtain rfl := List.mem_singleton.mp hip
      rfl
  ownSites _ site hsite := absurd hsite (by simp [Launch.ownSites, oneHost, Dict.get?_set])
  address := by
    intro site address hsite
    change (if site = ['b'] then some ['2'] else if site = anywhere then none else some site) = _ at hsite
    split_ifs at hsite with hb hany
    · obtain rfl := Option.some.inj hsite
      decide
    · obtain rfl := Option.some.inj hsite
      exact hany

/-- The site goes through, and another one does not. -/
theorem accepts_oneHost :
    (∃ rules, oneHost.setupAppNetwork ⟨true, ['t'], ['h']⟩ [] = .ok ⟨⟩ rules ∧ verdict rules ['u'] ['2'] = .accept) ∧
      ∃ rules, oneHost.setupAppNetwork ⟨true, ['t'], ['h']⟩ [] = .ok ⟨⟩ rules ∧
        verdict rules ['u'] ['3'] ≠ .accept := by
  obtain ⟨rules, hrun, hiff⟩ := accepts_iff oneHost ⟨true, ['t'], ['h']⟩ rfl (by decide) resolver_oneHost ['2']
  obtain ⟨rules', hrun', hiff'⟩ := accepts_iff oneHost ⟨true, ['t'], ['h']⟩ rfl (by decide) resolver_oneHost ['3']
  refine ⟨⟨rules, hrun, hiff.mpr ?_⟩, rules', hrun', fun haccept => ?_⟩
  · exact Or.inr (Or.inr (Or.inl ⟨_, rfl, ['b'], List.mem_cons_self, by decide⟩))
  · rw [← mem_listed, ← mem_listed, ← mem_listed] at hiff'
    exact absurd (hiff'.mp haccept) (by decide +kernel)

end Launch

end Riaps.Deployment
