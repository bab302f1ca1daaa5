import Mathlib.Data.List.TakeWhile
import Riaps.Discovery.Requests

/-!
# Keys

A provider is registered under the key that `buildInsertKeyValuePair` makes, and
a client looks up the key that `buildLookupKey` makes, each on its own host. The
two are strings put together from names, so two things are to be shown: that
they are the same for a provider and a client that belong together, and that
they are different for all others. `keys_agree_iff` is both.

Which names may stand in a key is `KeyNames`. Hosts are told apart by their MAC
addresses.
-/

namespace Riaps.Discovery

open Riaps.Foundation

theorem Kind.str_inj {k k' : Kind} (h : k.str = k'.str) : k = k' := by
  cases k <;> cases k' <;> first | rfl | exact absurd h (by decide)

theorem Kind.colon_notMem_str (k : Kind) : ':' ∉ k.str := by
  cases k <;> decide

namespace DiscoService

/-! ### The parts of a key -/

/-- What a key has after the kind of the provider. -/
def keyMark (host : Host) (scope : Scope) (owner : Text) : Text :=
  match scope with
  | .none | .global => []
  | .local => ':' :: host.macAddress
  | .internal => ':' :: (host.macAddress ++ ':' :: owner)

/-- The actor that an actor belongs to: of a device `A.d` the actor `A`, of any other itself. -/
def owner (actorName : Text) : Text := actorName.takeWhile (· ≠ '.')

/-- The names that a key is made of. A device is registered, and its name has one dot; no other actor has
one. -/
structure KeyNames (host : Host) (s : DiscoService) (path : Path) (actorName : Text) : Prop where
  appName : '/' ∉ path.appName
  msgType : '/' ∉ path.msgType
  scope : path.scope ≠ .none
  macAddress : ':' ∉ host.macAddress
  actorName : if s.isDeviceName path.appName actorName then actorName.count '.' = 1 else '.' ∉ actorName

instance (host : Host) (s : DiscoService) (path : Path) (actorName : Text) : Decidable
    (KeyNames host s path actorName) :=
  decidable_of_iff ('/' ∉ path.appName ∧ '/' ∉ path.msgType ∧ path.scope ≠ .none ∧ ':' ∉ host.macAddress ∧
      if s.isDeviceName path.appName actorName then actorName.count '.' = 1 else '.' ∉ actorName)
    ⟨fun h => ⟨h.1, h.2.1, h.2.2.1, h.2.2.2.1, h.2.2.2.2⟩,
      fun h => ⟨h.appName, h.msgType, h.scope, h.macAddress, h.actorName⟩⟩

variable {host host' : Host} {s s' : DiscoService} {path path' : Path} {actorName actorName' : Text}

/-- The first part of a text with a separator. -/
theorem takeWhile_of_splitOn {sep : Char} {text part : Text} {rest : List Text} (h : text.splitOn sep = part :: rest) :
    text.takeWhile (· ≠ sep) = part := by
  induction text generalizing part rest with
  | nil =>
    rw [List.splitOn_nil] at h
    exact (List.cons.inj h).1
  | cons c t ih =>
    rw [List.splitOn_cons_eq_if_modifyHead] at h
    by_cases hc : c = sep
    · subst hc
      simp only [beq_self_eq_true, if_true] at h
      simpa using (List.cons.inj h).1
    · rw [if_neg (by simpa using hc)] at h
      cases hsplit : t.splitOn sep with
      | nil => exact absurd hsplit (List.splitOn_ne_nil sep t)
      | cons p ps =>
        rw [hsplit, List.modifyHead_cons] at h
        rw [List.takeWhile_cons_of_pos (by simpa using hc), ih hsplit]
        exact (List.cons.inj h).1

theorem KeyNames.ownerName (h : KeyNames host s path actorName) :
    s.ownerName path.appName actorName = .ok (owner actorName) := by
  have hname := h.actorName
  unfold DiscoService.ownerName
  split_ifs at hname ⊢ with hdevice
  · have hlen := length_splitOn '.' actorName
    obtain ⟨a, rest, hsplit⟩ := List.length_eq_two.mp (hlen.trans (by rw [hname]))
    simp only [hsplit]
    rw [owner, takeWhile_of_splitOn hsplit]
  · rw [owner, List.takeWhile_eq_self_iff.mpr fun c hc => ?_]
    simp only [ne_eq, decide_eq_true_eq]
    rintro rfl
    exact hname hc

/-- A key, from its parts. -/
theorem KeyNames.buildKey (h : KeyNames host s path actorName) (kind : Kind) :
    s.buildKey host path.appName actorName path.msgType kind path.scope =
      .ok ('/' :: (path.appName ++ '/' :: (path.msgType ++ '/' :: (kind.str ++
        keyMark host path.scope (owner actorName))))) := by
  unfold DiscoService.buildKey keyMark
  cases path.scope with
  | none | global | «local» => simp
  | internal => simp [h.ownerName]

/-! ### Keys that agree -/

/-- A text without a colon, and then a mark. -/
theorem append_keyMark_inj {t t' : Text} (o o' : Text) {scope scope' : Scope} (ht : ':' ∉ t) (ht' : ':' ∉ t')
    (hscope : scope ≠ .none) (hscope' : scope' ≠ .none) (hmac : ':' ∉ host.macAddress)
    (hmac' : ':' ∉ host'.macAddress) :
    t ++ keyMark host scope o = t' ++ keyMark host' scope' o' ↔
      t = t' ∧ scope = scope' ∧ (scope = .local → host.macAddress = host'.macAddress) ∧
        (scope = .internal → host.macAddress = host'.macAddress ∧ o = o') := by
  have hcolon : ∀ {u v w : Text}, ':' ∉ u → u ≠ v ++ ':' :: w := fun hu h => hu (by rw [h]; simp)
  cases scope with
  | none => exact absurd rfl hscope
  | global =>
    cases scope' with
    | none => exact absurd rfl hscope'
    | global => simp [keyMark]
    | «local» | internal => simpa [keyMark] using hcolon ht
  | «local» =>
    cases scope' with
    | none => exact absurd rfl hscope'
    | global => simpa [keyMark] using (hcolon ht').symm
    | «local» => simp [keyMark, append_separator_inj ht ht']
    | internal => simpa [keyMark, append_separator_inj ht ht'] using fun _ => hcolon hmac
  | internal =>
    cases scope' with
    | none => exact absurd rfl hscope'
    | global => simpa [keyMark] using (hcolon ht').symm
    | «local» => simpa [keyMark, append_separator_inj ht ht'] using fun _ => (hcolon hmac').symm
    | internal => simp [keyMark, append_separator_inj ht ht', append_separator_inj hmac hmac']

/-- **The keys agree** for a provider and a client of one application and message type, the one of the kind
that serves the other, in one scope, on one host if that is local, and in one actor of one host if it is
internal; and for no others. -/
theorem keys_agree_iff (host host' : Host) (s s' : DiscoService) (provider lookup : Path) (socket : Socket)
    (client : Client) (h : KeyNames host s provider provider.actorName)
    (h' : KeyNames host' s' lookup client.actorName) :
    (∃ key value c, s.buildInsertKeyValuePair host provider socket = .ok (key, value) ∧
        s'.buildLookupKey host' lookup client = .ok (key, c)) ↔
      provider.appName = lookup.appName ∧ provider.msgType = lookup.msgType ∧
        kindMap lookup.kind = .ok provider.kind ∧ provider.scope = lookup.scope ∧
        (provider.scope = .local → host.macAddress = host'.macAddress) ∧
        (provider.scope = .internal →
          host.macAddress = host'.macAddress ∧ owner provider.actorName = owner client.actorName) := by
  unfold buildInsertKeyValuePair buildLookupKey
  rw [h.buildKey]
  cases hkind : kindMap lookup.kind with
  | error e => simp
  | ok kind =>
    have hkind' : kind = provider.kind ↔ provider.kind.str = kind.str :=
      ⟨fun h => congrArg Kind.str h.symm, fun h => (Kind.str_inj h).symm⟩
    have hparts := append_keyMark_inj (owner provider.actorName) (owner client.actorName)
      provider.kind.colon_notMem_str kind.colon_notMem_str h.scope h'.scope h.macAddress h'.macAddress
    rw [Except.ok.injEq, hkind', ← hparts, ← append_separator_inj h.msgType h'.msgType,
      ← append_separator_inj h.appName h'.appName, ← List.cons_inj_right '/']
    simp only [h'.buildKey]
    constructor
    · rintro ⟨key, value, c, hinsert, hlookup⟩
      have hkey := (Prod.mk.inj (Except.ok.inj hinsert)).1
      exact hkey.trans (Prod.mk.inj (Except.ok.inj hlookup)).1.symm
    · intro hkey
      exact ⟨_, _, _, rfl, by rw [hkey]⟩

theorem keys_agree_device :
    ∃ key value c, (init.setupClient host₁ ['a'] ['x', '.', 'd'] true 1).buildInsertKeyValuePair host₁
          ⟨['a'], ['x', '.', 'd'], ['t'], .pub, .internal⟩ socket₁ = .ok (key, value) ∧
        init.buildLookupKey host₁ ⟨['a'], ['x'], ['t'], .sub, .internal⟩ ⟨['h'], ['x'], ['i'], ['p']⟩ = .ok (key, c) :=
  (keys_agree_iff host₁ host₁ _ _ _ _ socket₁ _ (by decide +kernel) (by decide +kernel)).mpr (by decide +kernel)

end DiscoService

end Riaps.Discovery
