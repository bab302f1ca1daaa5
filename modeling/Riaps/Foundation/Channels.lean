import Mathlib.Data.List.Basic
import Mathlib.Tactic.Common

/-!
# What a channel has still to bring

A receiver takes the messages of a channel one after another, and whether it is open to them changes
with each, as `next` says. `openAfter` is whether it is open when all that is in the channel has come.
`Due` says that a message of some kind is in the channel and the receiver is open when it comes. A
message that is due stays so until it comes, whatever is sent after it.
-/

namespace Riaps.Foundation

universe u

variable {ε : Type u} (next : Bool → ε → Bool)

/-- Whether the receiver is open after a channel. -/
def openAfter (p : Bool) (channel : List ε) : Bool := channel.foldl next p

/-- A message of the kind comes while the receiver is open. -/
def Due (kind : ε → Prop) (p : Bool) (channel : List ε) : Prop :=
  ∃ before e after, channel = before ++ e :: after ∧ openAfter next p before = true ∧ kind e

variable {next}

@[simp] theorem openAfter_nil (p : Bool) : openAfter next p [] = p := rfl

@[simp] theorem openAfter_cons (p : Bool) (e : ε) (channel : List ε) :
    openAfter next p (e :: channel) = openAfter next (next p e) channel := rfl

@[simp] theorem openAfter_append (p : Bool) (channel more : List ε) :
    openAfter next p (channel ++ more) = openAfter next (openAfter next p channel) more := List.foldl_append

variable {kind : ε → Prop} {p : Bool} {channel : List ε} {e : ε}

@[simp] theorem not_due_nil : ¬Due next kind p [] := by
  rintro ⟨before, e, after, h, -⟩
  simp at h

/-- What is due stays so when more is sent. -/
theorem Due.append (h : Due next kind p channel) (more : List ε) : Due next kind p (channel ++ more) := by
  obtain ⟨before, e, after, rfl, hopen, he⟩ := h
  exact ⟨before, e, after ++ more, by simp, hopen, he⟩

/-- What is due after a channel has come is due when it is sent there. -/
theorem Due.prepend {more : List ε} (h : Due next kind (openAfter next p channel) more) :
    Due next kind p (channel ++ more) := by
  obtain ⟨before, e, after, rfl, hopen, he⟩ := h
  exact ⟨channel ++ before, e, after, by simp, by rw [openAfter_append, hopen], he⟩

/-- What is sent is due, if the receiver will be open. -/
theorem due_concat (hopen : openAfter next p channel = true) (he : kind e) : Due next kind p (channel ++ [e]) :=
  ⟨channel, e, [], rfl, hopen, he⟩

/-- When a message comes, it is the one that was due, or that stays due. -/
theorem Due.cons (h : Due next kind p (e :: channel)) : p = true ∧ kind e ∨ Due next kind (next p e) channel := by
  obtain ⟨before, e', after, heq, hopen, he⟩ := h
  cases before with
  | nil =>
    obtain ⟨rfl, rfl⟩ := List.cons.inj heq
    exact .inl ⟨hopen, he⟩
  | cons b before =>
    obtain ⟨rfl, rfl⟩ := List.cons.inj heq
    exact .inr ⟨before, e', after, rfl, hopen, he⟩

end Riaps.Foundation
