import Mathlib.Data.List.Basic
import Mathlib.Logic.Function.Basic

/-!
# FIFO channels, one for each key

A family of lists, one for each key, that are extended at the end and taken
from at the front.  A receiver takes messages from several channels in any
interleaving; the messages of one key it has taken, then what is left in the
channel, are what was in the channel before (`filter_take`).
-/

namespace Ibdxnet.Channels

variable {κ μ : Type*} [DecidableEq κ]

/-- Take the first message of the channel of each key, in this order. -/
def take : List κ → (κ → List μ) → Option (List μ × (κ → List μ))
  | [], ch => some ([], ch)
  | k :: ks, ch =>
    match ch k with
    | [] => none
    | m :: ms => (take ks (Function.update ch k ms)).map fun r => (m :: r.1, r.2)

/-- Every message knows the key of its channel. -/
def Keyed (key : μ → κ) (ch : κ → List μ) : Prop := ∀ k, ∀ m ∈ ch k, key m = k

section
variable {key : μ → κ} {ch ch' : κ → List μ} {k : κ} {ks : List κ} {m : μ} {ms : List μ}

theorem take_cons_eq_some (h : take (k :: ks) ch = some (ms, ch')) :
    ∃ m rest ms', ch k = m :: rest ∧ ms = m :: ms' ∧
      take ks (Function.update ch k rest) = some (ms', ch') := by
  rw [take] at h
  cases hk : ch k with
  | nil => rw [hk] at h; cases h
  | cons m rest =>
    rw [hk] at h
    obtain ⟨⟨ms', ch₁⟩, htake, heq⟩ := Option.map_eq_some_iff.mp h
    obtain ⟨rfl, rfl⟩ := Prod.mk.inj heq
    exact ⟨m, rest, ms', rfl, rfl, htake⟩

theorem length_take (h : take ks ch = some (ms, ch')) : ms.length = ks.length := by
  induction ks generalizing ch ms with
  | nil => cases h; rfl
  | cons k ks ih =>
    obtain ⟨m, rest, ms', -, rfl, htake⟩ := take_cons_eq_some h
    rw [List.length_cons, List.length_cons, ih htake]

theorem mem_of_take (h : take ks ch = some (ms, ch')) (hm : m ∈ ms) : ∃ k, m ∈ ch k := by
  induction ks generalizing ch ms with
  | nil => cases h; cases hm
  | cons k ks ih =>
    obtain ⟨m', rest, ms', hk, rfl, htake⟩ := take_cons_eq_some h
    rcases List.mem_cons.mp hm with rfl | hm
    · exact ⟨k, by rw [hk]; exact List.mem_cons_self⟩
    · obtain ⟨k', hk'⟩ := ih htake hm
      by_cases hkk : k' = k
      · rw [hkk, Function.update_self] at hk'
        exact ⟨k, by rw [hk]; exact List.mem_cons_of_mem _ hk'⟩
      · rw [Function.update_of_ne hkk] at hk'
        exact ⟨k', hk'⟩

/-- Channels that are suffixes of keyed ones are keyed. -/
theorem Keyed.tail {m : μ} {rest : List μ} (h : Keyed key ch) (hk : ch k = m :: rest) :
    Keyed key (Function.update ch k rest) := by
  intro k' m' hm'
  by_cases hkk : k' = k
  · rw [hkk, Function.update_self] at hm'
    rw [hkk]
    exact h k m' (by rw [hk]; exact List.mem_cons_of_mem _ hm')
  · rw [Function.update_of_ne hkk] at hm'
    exact h k' m' hm'

/-- Whatever the interleaving, each channel is taken from in order. -/
theorem filter_take (hkey : Keyed key ch) (h : take ks ch = some (ms, ch')) (k : κ) :
    ms.filter (fun m => key m = k) ++ ch' k = ch k := by
  induction ks generalizing ch ms with
  | nil => cases h; rfl
  | cons k₀ ks ih =>
    obtain ⟨m, rest, ms', hk₀, rfl, htake⟩ := take_cons_eq_some h
    have hm : key m = k₀ := hkey k₀ m (by rw [hk₀]; exact List.mem_cons_self)
    have hih := ih (hkey.tail hk₀) htake
    rw [List.filter_cons]
    by_cases hk : k = k₀
    · subst hk
      rw [Function.update_self] at hih
      rw [if_pos (by simpa using hm), List.cons_append, hih, hk₀]
    · rw [Function.update_of_ne hk] at hih
      rw [if_neg (by simpa [hm] using Ne.symm hk), hih]

end

end Ibdxnet.Channels
