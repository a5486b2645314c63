import Mathlib.Tactic.SplitIfs
import NodeFleet.Text.Quoted
import NodeFleet.Text.Search

/-!
# NodeFleet.Proofs.Escapes — what a quoted text mentions

A phrase in plain words is found in a quoted text exactly where it is found in the text itself.
Quoting leaves every character of such a phrase as it is, so it loses none of its occurrences; and
what an escaped character is written as holds a backslash or a brace, or a run of digits, so it adds
none.

* `infix_around`: a run does not reach across an element that it does not hold.
* `IsPlain`, `IsPlainPhrase`: the phrases of which this is true.
* `infix_escaped`: the characters of a text, escaped one by one.
* `mentions_quoted`: a quoted text, after any lead that does not mention the phrase.
-/

namespace NodeFleet.Text

/-! ## Runs in a list -/

section Runs

variable {α : Type} {pat before after : List α} {a : α}

/-- A run that does not hold an element lies before it or after it. -/
theorem infix_around (h : a ∉ pat) :
    pat <:+: before ++ a :: after ↔ pat <:+: before ∨ pat <:+: after := by
  constructor
  · intro hpat
    obtain hbefore | hafter | ⟨early, late, rfl, hearly, hlate⟩ := List.infix_append_iff.mp hpat
    · exact .inl hbefore
    · obtain hprefix | hafter := List.infix_cons_iff.mp hafter
      · cases pat with
        | nil => exact .inr List.nil_infix
        | cons b pat =>
          exact absurd (List.cons_prefix_cons.mp hprefix).1 fun heq => h (by simp [heq])
      · exact .inr hafter
    · -- what lies after the beginning would begin with the element
      cases late with
      | nil => exact .inl (by simpa using hearly.isInfix)
      | cons b late => exact absurd (List.cons_prefix_cons.mp hlate).1 fun heq => h (by simp [heq])
  · rintro (hbefore | hafter)
    · exact List.infix_append_of_infix_left hbefore
    · exact List.infix_append_of_infix_right (List.infix_cons hafter)

/-- A run does not begin with an element that is not its first. -/
theorem infix_cons_of_head? (h : pat.head? ≠ some a) : pat <:+: a :: after ↔ pat <:+: after := by
  refine ⟨fun hpat => ?_, List.infix_cons⟩
  obtain hprefix | hafter := List.infix_cons_iff.mp hpat
  · cases pat with
    | nil => exact List.nil_infix
    | cons b pat => exact absurd (congrArg some (List.cons_prefix_cons.mp hprefix).1) h
  · exact hafter

end Runs

/-! ## Phrases in plain words -/

/-- A small letter, a space or an apostrophe. -/
def IsPlain (c : Char) : Prop := c.isLower ∨ c = ' ' ∨ c = '\''

instance (c : Char) : Decidable (IsPlain c) := inferInstanceAs (Decidable (_ ∨ _))

/-- The digits in base sixteen. -/
def sixteenDigits : List Char :=
  ['0', '1', '2', '3', '4', '5', '6', '7', '8', '9', 'a', 'b', 'c', 'd', 'e', 'f']

/-- A phrase that no escaped character can hold a part of: it is in plain characters, does not begin
with a letter that stands after a backslash, and is not all in digits of base sixteen. -/
structure IsPlainPhrase (pat : List Char) : Prop where
  plain : ∀ c ∈ pat, IsPlain c
  begins : ∀ mark ∈ ['t', 'n', 'r', 'u'], pat.head? ≠ some mark
  wide : ∃ c ∈ pat, c ∉ sixteenDigits

section Plain

variable {c : Char}

/-- Neither a plain character nor the capital form of one is escaped. -/
theorem escapeChar_of_plain (h : IsPlain (foldCase c)) : escapeChar c = [c] := by
  -- neither letters nor a space or an apostrophe lie among the characters that are escaped
  have hrange : 0x20 ≤ c.toNat ∧ c.toNat < 0x7F ∧ c.toNat ≠ 0x22 ∧ c.toNat ≠ 0x5C := by
    unfold IsPlain foldCase Char.toLower at h
    split at h
    · rename_i hcapital
      simp only [UInt32.le_iff_toNat_le, ge_iff_le] at hcapital
      have hlow : 65 ≤ c.toNat := hcapital.1
      have hhigh : c.toNat ≤ 90 := hcapital.2
      omega
    · obtain hsmall | rfl | rfl := h
      · have hbetween : (decide ('a'.val ≤ c.val) && decide (c.val ≤ 'z'.val)) = true := hsmall
        simp only [UInt32.le_iff_toNat_le, Bool.and_eq_true, decide_eq_true_eq] at hbetween
        have hlow : 97 ≤ c.toNat := hbetween.1
        have hhigh : c.toNat ≤ 122 := hbetween.2
        omega
      · decide
      · decide
  have hshown : isUnshown c = false := by
    unfold isUnshown
    simp [show ¬ c.toNat < 0x20 by omega, show ¬ 0x7F ≤ c.toNat by omega]
  have hne (d : Char) (hd : d.toNat < 0x20 ∨ d.toNat = 0x22 ∨ d.toNat = 0x5C) : c ≠ d := by
    rintro rfl
    omega
  unfold escapeChar
  rw [if_neg (hne '"' (by decide)), if_neg (hne '\\' (by decide)), if_neg (hne '\t' (by decide)),
    if_neg (hne '\n' (by decide)), if_neg (hne '\r' (by decide)), if_neg (hne '\x00' (by decide)),
    if_neg (Bool.eq_false_iff.mp hshown)]

/-- A number is written in the digits of its base. -/
theorem mem_hexDigits {n : Nat} (h : c ∈ hexDigits n) : c ∈ sixteenDigits := by
  have hdigit {d : Nat} (hd : d < 16) : d.digitChar ∈ sixteenDigits := by
    have hall : ∀ d < 16, d.digitChar ∈ sixteenDigits := by decide
    exact hall d hd
  induction n using Nat.strongRecOn with
  | ind n ih =>
    unfold hexDigits at h
    rw [Nat.toDigits_eq_if (by decide)] at h
    split at h
    · obtain rfl := List.mem_singleton.mp h
      exact hdigit ‹_›
    · obtain hmore | hlast := List.mem_append.mp h
      · exact ih (n / 16) (by omega) hmore
      · obtain rfl := List.mem_singleton.mp hlast
        exact hdigit (Nat.mod_lt n (by decide))

/-- An escaped character is written after a backslash, by a mark or by number. -/
theorem escapeChar_cases (c : Char) :
    escapeChar c = [c] ∨ (∃ mark ∈ ['"', '\\', 't', 'n', 'r', '0'], escapeChar c = ['\\', mark]) ∨
      escapeChar c = '\\' :: 'u' :: '\x7b' :: (hexDigits c.toNat ++ ['\x7d']) := by
  unfold escapeChar
  split_ifs
  · exact .inr (.inl ⟨'"', by simp, rfl⟩)
  · exact .inr (.inl ⟨'\\', by simp, rfl⟩)
  · exact .inr (.inl ⟨'t', by simp, rfl⟩)
  · exact .inr (.inl ⟨'n', by simp, rfl⟩)
  · exact .inr (.inl ⟨'r', by simp, rfl⟩)
  · exact .inr (.inl ⟨'0', by simp, rfl⟩)
  · exact .inr (.inr rfl)
  · exact .inl rfl

end Plain

/-! ## Quoted texts -/

section Quoting

variable {pat : List Char} {c : Char} {cs : List Char}

/-- The characters as they are compared: escaped, and capital letters as small ones. -/
def escapedFolds (cs : List Char) : List Char := (cs.flatMap escapeChar).map foldCase

theorem escapedFolds_cons (c : Char) (cs : List Char) :
    escapedFolds (c :: cs) = (escapeChar c).map foldCase ++ escapedFolds cs := by
  unfold escapedFolds
  rw [List.flatMap_cons, List.map_append]

theorem escapedFolds_shown (h : escapeChar c = [c]) :
    escapedFolds (c :: cs) = foldCase c :: escapedFolds cs := by
  rw [escapedFolds_cons, h]
  rfl

/-- An escaped character begins with a backslash. -/
theorem escapedFolds_escaped (cs : List Char) (h : escapeChar c ≠ [c]) :
    ∃ rest, escapedFolds (c :: cs) = '\\' :: rest := by
  rw [escapedFolds_cons]
  obtain heq | ⟨mark, -, heq⟩ | heq := escapeChar_cases c
  · exact absurd heq h
  · exact ⟨_, by rw [heq]; rfl⟩
  · exact ⟨_, by rw [heq]; rfl⟩

/-- Plain characters begin the escaped text exactly when they begin the text. -/
theorem prefix_escaped (h : ∀ c ∈ pat, IsPlain c) (cs : List Char) :
    pat <+: escapedFolds cs ↔ pat <+: cs.map foldCase := by
  induction cs generalizing pat with
  | nil => rfl
  | cons c cs ih =>
    cases pat with
    | nil => exact iff_of_true List.nil_prefix List.nil_prefix
    | cons b pat =>
      rw [List.map_cons, List.cons_prefix_cons]
      by_cases hshown : escapeChar c = [c]
      · rw [escapedFolds_shown hshown, List.cons_prefix_cons,
          ih fun d hd => h d (List.mem_cons_of_mem b hd)]
      · obtain ⟨rest, heq⟩ := escapedFolds_escaped cs hshown
        rw [heq, List.cons_prefix_cons]
        refine iff_of_false ?_ ?_
        · rintro ⟨rfl, -⟩
          exact absurd (h _ List.mem_cons_self) (by decide)
        · rintro ⟨rfl, -⟩
          exact hshown (escapeChar_of_plain (h _ List.mem_cons_self))

namespace IsPlainPhrase

variable (h : IsPlainPhrase pat)
include h

theorem not_mem (hc : ¬ IsPlain c) : c ∉ pat := fun hm => hc (h.plain c hm)

theorem head?_ne (hc : ¬ IsPlain c) : pat.head? ≠ some c :=
  fun heq => h.not_mem hc (List.mem_of_head? heq)

theorem not_infix_hexDigits (n : Nat) : ¬ pat <:+: (hexDigits n).map foldCase := by
  intro hpat
  obtain ⟨c, hm, hwide⟩ := h.wide
  obtain ⟨digit, hdigit, rfl⟩ := List.mem_map.mp (hpat.subset hm)
  have hfold : sixteenDigits.map foldCase = sixteenDigits := by decide
  exact hwide (hfold ▸ List.mem_map_of_mem (mem_hexDigits hdigit))

/-- No occurrence begins in an escaped character. -/
theorem infix_escape (hescaped : escapeChar c ≠ [c]) (after : List Char) :
    pat <:+: (escapeChar c).map foldCase ++ after ↔ pat <:+: after := by
  have hbackslash (rest : List Char) : pat <:+: '\\' :: rest ↔ pat <:+: rest :=
    infix_cons_of_head? (h.head?_ne (by decide))
  -- every escape begins with a backslash, at which no phrase begins
  obtain heq | ⟨mark, hmark, heq⟩ | heq := escapeChar_cases c
  · exact absurd heq hescaped
  · rw [heq]
    refine (hbackslash _).trans (infix_cons_of_head? ?_)
    simp only [List.mem_cons, List.not_mem_nil, or_false] at hmark
    obtain rfl | rfl | rfl | rfl | rfl | rfl := hmark
    · exact h.head?_ne (by decide)
    · exact h.head?_ne (by decide)
    · exact h.begins _ (by decide)
    · exact h.begins _ (by decide)
    · exact h.begins _ (by decide)
    · exact h.head?_ne (by decide)
  -- behind the brace stand digits, and after them another brace
  · have hdigits : (escapeChar c).map foldCase ++ after =
        '\\' :: 'u' :: '\x7b' :: ((hexDigits c.toNat).map foldCase ++ '\x7d' :: after) := by
      rw [heq]
      simp [foldCase]
    rw [hdigits, hbackslash, infix_cons_of_head? (h.begins _ (by decide)),
      infix_cons_of_head? (h.head?_ne (by decide)), infix_around (h.not_mem (by decide)),
      or_iff_right (h.not_infix_hexDigits _)]

/-- Escaping neither makes nor spoils an occurrence. -/
theorem infix_escaped (cs : List Char) : pat <:+: escapedFolds cs ↔ pat <:+: cs.map foldCase := by
  induction cs with
  | nil => rfl
  | cons c cs ih =>
    by_cases hshown : escapeChar c = [c]
    · have hhere := prefix_escaped h.plain (c :: cs)
      rw [escapedFolds_shown hshown, List.map_cons] at hhere
      rw [escapedFolds_shown hshown, List.map_cons, List.infix_cons_iff, List.infix_cons_iff, hhere,
        ih]
    · have hplain : ¬ IsPlain (foldCase c) := fun hp => hshown (escapeChar_of_plain hp)
      rw [escapedFolds_cons, h.infix_escape hshown, ih, List.map_cons,
        infix_cons_of_head? (h.head?_ne hplain)]

end IsPlainPhrase

end Quoting

/-! ## Phrases in texts -/

/-- A phrase in plain words is found in a quoted text exactly when it is found in the text, also
after a lead that does not mention it. -/
theorem mentions_quoted {phrase lead : String} (h : IsPlainPhrase phrase.toList)
    (hlead : mentions phrase lead = false) (text : String) :
    mentions phrase (lead ++ quoted text) = mentions phrase text := by
  have hchars : (lead ++ quoted text).toList.map foldCase =
      lead.toList.map foldCase ++ '"' :: (escapedFolds text.toList ++ '"' :: []) := by
    unfold quoted escapedFolds
    simp [foldCase]
  have hquote : '"' ∉ phrase.toList := h.not_mem (by decide)
  have hnil : ¬ phrase.toList <:+: [] := by
    obtain ⟨c, hm, -⟩ := h.wide
    exact fun hpat => List.not_mem_nil (hpat.subset hm)
  rw [Bool.eq_iff_iff, mentions_iff, mentions_iff, hchars, infix_around hquote,
    infix_around hquote, h.infix_escaped, or_iff_left hnil, or_iff_right]
  exact fun hpat => Bool.false_ne_true (hlead.symm.trans (mentions_iff.mpr hpat))

end NodeFleet.Text
