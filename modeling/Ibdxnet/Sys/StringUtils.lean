import Mathlib.Data.List.Basic

/-!
# Splitting strings

`StringUtils::Split`, as the readers of addresses and node configurations use it.
A `std::string` is the list of its characters.

The loop drops one character at a match, whatever the length of the delimiter:

    with empty tokens, the text is the tokens joined by the first character of
      the delimiter; without, they are the non-empty ones        (split_lossless)
    with a delimiter of one character, `Split` is `splitOn`       (split_singleton)
-/

namespace Ibdxnet.Sys

/-- What the functions of the standard library throw. -/
inductive StdException
  | outOfRange
  | invalidArgument
  deriving DecidableEq, Repr

namespace StringUtils

/-- `std::string::find` -/
def find (delimiter : List Char) : List Char → Option Nat
  | [] => if delimiter = [] then some 0 else none
  | c :: cs =>
    if delimiter.isPrefixOf (c :: cs) then some 0 else (find delimiter cs).map (· + 1)

/-- The loop of `Split`; its `break` repeats the loop's own condition. -/
def splitLoop (delimiter : List Char) (ignoreEmptyTokens : Bool) (remaining : List Char)
    (result : List (List Char)) : Except StdException (List (List Char)) :=
  match find delimiter remaining with
  | none => .ok (if remaining.length ≠ 0 then result ++ [remaining] else result)
  | some pos =>
    let token := remaining.take pos
    let result := if token.length ≠ 0 ∨ ¬ ignoreEmptyTokens then result ++ [token] else result
    -- `substr` throws past the end of the string
    if pos + 1 ≤ remaining.length then
      splitLoop delimiter ignoreEmptyTokens (remaining.drop (pos + 1)) result
    else
      .error .outOfRange
termination_by remaining.length
decreasing_by rw [List.length_drop]; omega

def split (text delimiter : List Char) (ignoreEmptyTokens : Bool) :
    Except StdException (List (List Char)) :=
  splitLoop delimiter ignoreEmptyTokens text []

/-! ## One turn of the loop -/

variable {d : Char} {ds text remaining : List Char} {ignoreEmptyTokens : Bool}
  {result tokens : List (List Char)} {pos : Nat}

/-- A match starts with the delimiter's first character. -/
theorem drop_of_find (h : find (d :: ds) text = some pos) :
    text.drop pos = d :: text.drop (pos + 1) := by
  induction text generalizing pos with
  | nil => cases h
  | cons c cs ih =>
    rw [find] at h
    split at h
    · next hstart =>
      obtain rfl := Option.some.inj h
      rw [List.isPrefixOf_iff_prefix, List.cons_prefix_cons] at hstart
      rw [hstart.1]
      rfl
    · obtain ⟨k, hk, rfl⟩ := Option.map_eq_some_iff.mp h
      exact ih hk

theorem lt_of_find (h : find (d :: ds) text = some pos) : pos < text.length := by
  apply Nat.lt_of_not_le
  intro hle
  have hdrop := drop_of_find h
  rw [List.drop_eq_nil_of_le hle] at hdrop
  cases hdrop

/-- A text is the token before a match, the character dropped, and the rest. -/
theorem eq_of_find (h : find (d :: ds) text = some pos) :
    text = text.take pos ++ d :: text.drop (pos + 1) := by
  rw [← drop_of_find h, List.take_append_drop]

theorem splitLoop_of_none {delimiter : List Char} (h : find delimiter remaining = none) :
    splitLoop delimiter ignoreEmptyTokens remaining result =
      .ok (if remaining.length ≠ 0 then result ++ [remaining] else result) := by
  rw [splitLoop, h]

theorem splitLoop_of_find (h : find (d :: ds) remaining = some pos) :
    splitLoop (d :: ds) ignoreEmptyTokens remaining result =
      splitLoop (d :: ds) ignoreEmptyTokens (remaining.drop (pos + 1))
        (if (remaining.take pos).length ≠ 0 ∨ ¬ ignoreEmptyTokens then
          result ++ [remaining.take pos] else result) := by
  rw [splitLoop, h]
  exact if_pos (lt_of_find h)

/-! ## Nothing but the matched characters is lost -/

def nonEmpty (tokens : List (List Char)) : List (List Char) := tokens.filter (· ≠ [])

theorem nonEmpty_cons_of_ne {token : List Char} (h : token ≠ []) :
    nonEmpty (token :: tokens) = token :: nonEmpty tokens :=
  List.filter_cons_of_pos (decide_eq_true h)

/-- The loop keeps a token unless it is empty. -/
theorem append_nonEmpty_cons (token : List Char) :
    result ++ nonEmpty (token :: tokens) =
      (if token.length ≠ 0 ∨ ¬ (true : Bool) then result ++ [token] else result) ++
        nonEmpty tokens := by
  by_cases htoken : token = []
  · subst htoken
    rfl
  · have hlength : token.length ≠ 0 := by
      intro h
      exact htoken (List.length_eq_zero_iff.mp h)
    rw [if_pos (Or.inl hlength), nonEmpty_cons_of_ne htoken, List.append_assoc]
    rfl

/-- So does the end of the loop. -/
theorem append_nonEmpty_singleton (token : List Char) :
    result ++ nonEmpty [token] = if token.length ≠ 0 then result ++ [token] else result := by
  by_cases htoken : token = []
  · subst htoken
    exact List.append_nil result
  · have hlength : token.length ≠ 0 := by
      intro h
      exact htoken (List.length_eq_zero_iff.mp h)
    rw [if_pos hlength, nonEmpty_cons_of_ne htoken]
    rfl

/-- The text is the tokens with `d` between them, or with `d` behind each. -/
def Joins (d : Char) (tokens : List (List Char)) (text : List Char) : Prop :=
  (tokens ≠ [] ∧ text = [d].intercalate tokens) ∨ text = tokens.flatMap (· ++ [d])

theorem Joins.cons (h : Joins d tokens text) (token : List Char) :
    Joins d (token :: tokens) (token ++ d :: text) := by
  rcases h with ⟨hne, rfl⟩ | rfl
  · refine Or.inl ⟨List.cons_ne_nil _ _, ?_⟩
    rw [List.intercalate_cons_of_ne_nil hne]
    simp
  · right
    simp

/-- What the loop adds, with and without empty tokens. -/
theorem exists_splitLoop (d : Char) (ds remaining : List Char) :
    ∃ tokens, Joins d tokens remaining ∧
      (∀ result, splitLoop (d :: ds) false remaining result = .ok (result ++ tokens)) ∧
      ∀ result, splitLoop (d :: ds) true remaining result = .ok (result ++ nonEmpty tokens) := by
  induction hlen : remaining.length using Nat.strongRecOn generalizing remaining with
  | ind len ih =>
    cases hfind : find (d :: ds) remaining with
    | none =>
      by_cases hnil : remaining = []
      · subst hnil
        refine ⟨[], Or.inr rfl, ?_, ?_⟩ <;> intro result <;>
          rw [splitLoop_of_none hfind] <;>
          exact congrArg Except.ok (List.append_nil result).symm
      · refine ⟨[remaining], Or.inl ⟨List.cons_ne_nil _ _, ?_⟩, ?_, ?_⟩
        · rw [List.intercalate_singleton]
        · intro result
          rw [splitLoop_of_none hfind, if_pos fun h => hnil (List.length_eq_zero_iff.mp h)]
        · intro result
          rw [splitLoop_of_none hfind, append_nonEmpty_singleton]
    | some pos =>
      have hlt := lt_of_find hfind
      obtain ⟨tokens, hjoins, hall, hnonempty⟩ := ih (remaining.drop (pos + 1)).length
        (by rw [List.length_drop]; omega) (remaining.drop (pos + 1)) rfl
      refine ⟨remaining.take pos :: tokens, ?_, ?_, ?_⟩
      · have hcons := hjoins.cons (remaining.take pos)
        rwa [← eq_of_find hfind] at hcons
      · intro result
        rw [splitLoop_of_find hfind, if_pos (Or.inr Bool.false_ne_true), hall, List.append_assoc]
        rfl
      · intro result
        rw [splitLoop_of_find hfind, hnonempty, append_nonEmpty_cons]

/-- **`Split` loses only the characters it matched**: with empty tokens kept, the
text is the tokens joined by the first character of the delimiter, one more at
the end if the text ends in a match; without, the others are the same. -/
theorem split_lossless (d : Char) (ds text : List Char) :
    ∃ tokens, Joins d tokens text ∧ split text (d :: ds) false = .ok tokens ∧
      split text (d :: ds) true = .ok (tokens.filter (· ≠ [])) := by
  obtain ⟨tokens, hjoins, hall, hnonempty⟩ := exists_splitLoop d ds text
  exact ⟨tokens, hjoins, hall [], hnonempty []⟩

/-! ## Delimiters of one character -/

theorem find_singleton_eq_none (h : find [d] text = none) : d ∉ text := by
  induction text with
  | nil => exact List.not_mem_nil
  | cons c cs ih =>
    rw [find] at h
    split at h
    · cases h
    · next hstart =>
      rw [Option.map_eq_none_iff] at h
      rw [List.isPrefixOf_iff_prefix, List.cons_prefix_cons] at hstart
      intro hmem
      rcases List.mem_cons.mp hmem with rfl | hmem
      · exact hstart ⟨rfl, List.nil_prefix⟩
      · exact ih h hmem

/-- No character of the token is the delimiter. -/
theorem not_mem_take_of_find (h : find [d] text = some pos) : d ∉ text.take pos := by
  induction text generalizing pos with
  | nil => cases h
  | cons c cs ih =>
    rw [find] at h
    split at h
    · obtain rfl := Option.some.inj h
      exact List.not_mem_nil
    · next hstart =>
      obtain ⟨k, hk, rfl⟩ := Option.map_eq_some_iff.mp h
      rw [List.isPrefixOf_iff_prefix, List.cons_prefix_cons] at hstart
      intro hmem
      rcases List.mem_cons.mp hmem with rfl | hmem
      · exact hstart ⟨rfl, List.nil_prefix⟩
      · exact ih hk hmem

theorem splitLoop_eq_splitOn (d : Char) (remaining : List Char) (result : List (List Char)) :
    splitLoop [d] true remaining result = .ok (result ++ nonEmpty (remaining.splitOn d)) := by
  induction hlen : remaining.length using Nat.strongRecOn generalizing remaining result with
  | ind len ih =>
    cases hfind : find [d] remaining with
    | none =>
      rw [splitLoop_of_none hfind, List.splitOn_eq_singleton (find_singleton_eq_none hfind),
        append_nonEmpty_singleton]
    | some pos =>
      have hlt := lt_of_find hfind
      have hsplit : remaining.splitOn d =
          remaining.take pos :: (remaining.drop (pos + 1)).splitOn d := by
        conv_lhs => rw [eq_of_find hfind]
        exact List.splitOn_append_cons_self_of_not_mem (not_mem_take_of_find hfind) _
      rw [splitLoop_of_find hfind, hsplit, append_nonEmpty_cons]
      apply ih (remaining.drop (pos + 1)).length ?_ _ _ rfl
      rw [List.length_drop]
      omega

/-- What `Split` returns for the delimiters the program has. -/
theorem split_singleton (text : List Char) (d : Char) :
    split text [d] true = .ok ((text.splitOn d).filter (· ≠ [])) :=
  splitLoop_eq_splitOn d text []

/-- Tokens that can be told apart come back from their join. -/
theorem split_intercalate (hd : ∀ token ∈ tokens, d ∉ token) (hne : ∀ token ∈ tokens, token ≠ []) :
    split ([d].intercalate tokens) [d] true = .ok tokens := by
  rw [split_singleton]
  by_cases hnil : tokens = []
  · subst hnil
    rfl
  · rw [List.splitOn_intercalate d hd hnil,
      List.filter_eq_self.mpr fun token htoken => decide_eq_true (hne token htoken)]

end StringUtils

end Ibdxnet.Sys
