import Mathlib.Data.List.Forall2
import NodeFleet.Proofs.LetterCase

/-!
# NodeFleet.Proofs.Lowercase — phrases in a text that is put in small letters

`Text.mentions` folds the letters of ASCII only, while a text may be in any script.  Small letters
of a whole text are made character by character, each of which is replaced by a piece that may
depend on where it stands (a final sigma); only two characters outside ASCII have pieces with
characters of ASCII in them.  A phrase that has nothing to do with those two is found in the small
letters of a text exactly where `mentions` finds it.

* `Text.LowersTo`: the pieces that a character may be replaced by.  `Text.IsLowered`: a text, and
  the same text in small letters, which there is by `exists_isLowered`.
* `Text.IsSearchPhrase`: a phrase that the two exceptions cannot be part of.
* `Text.mentions_eq_occursIn`: looking for such a phrase is looking for it in small letters.
* `searchedPhrases_lowered`: the phrases that answers are searched for are such phrases.
-/

namespace NodeFleet

namespace Text

/-! ## Small letters -/

/-- A character of ASCII. -/
def IsAscii (c : Char) : Prop := c.toNat < 128

instance (c : Char) : Decidable (IsAscii c) := inferInstanceAs (Decidable (_ < _))

/-- What a character may be replaced by when a text is put in small letters.  Outside ASCII it is
some piece without a character of ASCII, but for the Kelvin sign and the capital I with a dot. -/
inductive LowersTo : Char → List Char → Prop
  | ascii {c : Char} (hc : IsAscii c) : LowersTo c [foldCase c]
  | other {c : Char} {piece : List Char} (hc : ¬ IsAscii c) (hne : piece ≠ [])
      (hpiece : ∀ d ∈ piece, ¬ IsAscii d) : LowersTo c piece
  | kelvin : LowersTo '\u212a' ['k']
  | dotted : LowersTo '\u0130' ['i', '\u0307']

/-- The second text is the first one in small letters. -/
def IsLowered (text lowered : String) : Prop :=
  ∃ pieces, List.Forall₂ LowersTo text.toList pieces ∧ lowered.toList = pieces.flatten

/-- A phrase in ASCII that no small letter of the Kelvin sign or of the dotted I can be part of:
after the `i` of the latter stands its dot. -/
structure IsSearchPhrase (pat : List Char) : Prop where
  ascii : ∀ c ∈ pat, IsAscii c
  no_k : 'k' ∉ pat
  not_ends_i : pat.getLast? ≠ some 'i'

instance (pat : List Char) : Decidable (IsSearchPhrase pat) :=
  -- along the phrase, not over all characters there are
  haveI : Decidable (∀ c ∈ pat, IsAscii c) := List.decidableBAll IsAscii pat
  decidable_of_iff ((∀ c ∈ pat, IsAscii c) ∧ 'k' ∉ pat ∧ pat.getLast? ≠ some 'i')
    ⟨fun ⟨h, hk, hi⟩ => ⟨h, hk, hi⟩, fun ⟨h, hk, hi⟩ => ⟨h, hk, hi⟩⟩

/-! ## Phrases -/

section Phrases

variable {c d : Char} {pat ds piece cs text : List Char} {pieces : List (List Char)}

/-- Outside ASCII nothing is folded. -/
theorem isAscii_foldCase : IsAscii (foldCase c) ↔ IsAscii c := by
  unfold IsAscii
  rcases foldCase_cases c with h | ⟨hlow, hhigh, h⟩
  · rw [h]
  · omega

theorem IsSearchPhrase.tail (h : IsSearchPhrase (d :: ds)) : IsSearchPhrase ds where
  ascii c hc := h.ascii c (List.mem_cons_of_mem d hc)
  no_k hk := h.no_k (List.mem_cons_of_mem d hk)
  not_ends_i hi := by
    refine h.not_ends_i ?_
    rw [List.getLast?_cons, hi]
    rfl

/-- A phrase does not begin with a character outside ASCII. -/
theorem not_prefix_of_not_ascii (h : IsSearchPhrase (d :: ds)) (hc : ¬ IsAscii c) :
    ¬ d :: ds <+: c :: cs := by
  rw [List.cons_prefix_cons]
  rintro ⟨rfl, -⟩
  exact hc (h.ascii d List.mem_cons_self)

/-- Nor does it begin with the small letter of the Kelvin sign, -/
theorem not_prefix_kelvin (h : IsSearchPhrase (d :: ds)) : ¬ d :: ds <+: 'k' :: cs := by
  rw [List.cons_prefix_cons]
  rintro ⟨rfl, -⟩
  exact h.no_k List.mem_cons_self

/-- or with those of the dotted I. -/
theorem not_prefix_dotted (h : IsSearchPhrase (d :: ds)) : ¬ d :: ds <+: 'i' :: '\u0307' :: cs := by
  rw [List.cons_prefix_cons]
  rintro ⟨rfl, hds⟩
  cases ds with
  | nil => exact h.not_ends_i rfl
  | cons e es => exact not_prefix_of_not_ascii h.tail (by decide) hds

/-- In small letters a text begins with a phrase if it does so when ASCII alone is folded. -/
theorem prefix_lowered_iff (h : IsSearchPhrase pat) (hpieces : List.Forall₂ LowersTo text pieces) :
    pat <+: pieces.flatten ↔ pat <+: text.map foldCase := by
  -- along the phrase: each of its characters is the folded form of a single character
  induction pat generalizing text pieces with
  | nil => exact iff_of_true List.nil_prefix List.nil_prefix
  | cons d ds ih =>
    cases hpieces with
    | nil => rfl
    | @cons c piece text pieces hc hrest =>
      rw [List.flatten_cons, List.map_cons]
      cases hc with
      | ascii =>
        rw [List.singleton_append, List.cons_prefix_cons, List.cons_prefix_cons, ih h.tail hrest]
      | other hc hne hpiece =>
        obtain ⟨e, es, rfl⟩ := List.exists_cons_of_ne_nil hne
        have he : ¬ IsAscii e := hpiece e List.mem_cons_self
        exact iff_of_false (not_prefix_of_not_ascii h he)
          (not_prefix_of_not_ascii h (mt isAscii_foldCase.mp hc))
      | kelvin =>
        exact iff_of_false (not_prefix_kelvin h) (not_prefix_of_not_ascii h (by decide))
      | dotted =>
        exact iff_of_false (not_prefix_dotted h) (not_prefix_of_not_ascii h (by decide))

/-- A phrase that occurs after characters outside ASCII does not begin among them. -/
theorem infix_append_iff (h : IsSearchPhrase (d :: ds)) (hpiece : ∀ e ∈ piece, ¬ IsAscii e) :
    d :: ds <:+: piece ++ cs ↔ d :: ds <:+: cs := by
  induction piece with
  | nil => rfl
  | cons e piece ih =>
    obtain ⟨he, hpiece⟩ := List.forall_mem_cons.mp hpiece
    rw [List.cons_append, List.infix_cons_iff, ih hpiece,
      or_iff_right (not_prefix_of_not_ascii h he)]

/-- In small letters a phrase occurs in a text if it does so when ASCII alone is folded. -/
theorem infix_lowered_iff (h : IsSearchPhrase pat) (hpieces : List.Forall₂ LowersTo text pieces) :
    pat <:+: pieces.flatten ↔ pat <:+: text.map foldCase := by
  cases pat with
  | nil => exact iff_of_true List.nil_infix List.nil_infix
  | cons d ds =>
    -- along the text: an occurrence begins with the piece of a character or after it
    induction hpieces with
    | nil => rfl
    | @cons c piece text pieces hc hrest ih =>
      have hprefix := prefix_lowered_iff h (.cons hc hrest)
      rw [List.flatten_cons, List.map_cons] at hprefix ⊢
      rw [List.infix_cons_iff (a := foldCase c), ← hprefix, ← ih]
      cases hc with
      | ascii => rw [List.singleton_append, List.infix_cons_iff]
      | other hc hne hpiece =>
        obtain ⟨e, es, rfl⟩ := List.exists_cons_of_ne_nil hne
        rw [infix_append_iff h hpiece, List.cons_append,
          or_iff_right (not_prefix_of_not_ascii h (hpiece e List.mem_cons_self))]
      | kelvin => rw [List.singleton_append, List.infix_cons_iff]
      | dotted =>
        have hdot : ¬ d :: ds <+: '\u0307' :: pieces.flatten :=
          not_prefix_of_not_ascii h (by decide)
        rw [List.cons_append, List.singleton_append, List.infix_cons_iff,
          List.infix_cons_iff (a := '\u0307'), or_iff_right hdot]

end Phrases

/-- Every text can be put in small letters: what is not in ASCII may stay as it is. -/
theorem exists_isLowered (text : String) : ∃ lowered, IsLowered text lowered := by
  refine ⟨String.ofList (text.toList.map foldCase), text.toList.map ([foldCase ·]), ?_, ?_⟩
  · refine List.forall₂_map_right_iff.mpr (List.forall₂_same.mpr fun c _ => ?_)
    by_cases hc : IsAscii c
    · exact .ascii hc
    · exact .other hc (List.cons_ne_nil _ _) fun d hd =>
        List.mem_singleton.mp hd ▸ mt isAscii_foldCase.mp hc
  · rw [String.toList_ofList, ← List.flatMap_def, List.map_eq_flatMap]

/-- Looking for a phrase is looking for it in the small letters of the text. -/
theorem mentions_eq_occursIn {phrase text lowered : String} (h : IsSearchPhrase phrase.toList)
    (hlowered : IsLowered text lowered) : mentions phrase text = occursIn phrase lowered := by
  obtain ⟨pieces, hpieces, hflatten⟩ := hlowered
  rw [Bool.eq_iff_iff, mentions_iff, occursIn_iff, hflatten, infix_lowered_iff h hpieces]

end Text

/-- The phrases that answers are searched for. -/
def searchedPhrases : List String :=
  ["not", "error", "couldn't connect to server", "couldn't connect", "denied", "cannot", "refused",
    "stopping", "success"]

/-- Whatever answers are searched for is found exactly where the small letters of the text hold
it. -/
theorem searchedPhrases_lowered {text lowered : String} (h : Text.IsLowered text lowered) :
    ∀ phrase ∈ searchedPhrases, Text.mentions phrase text = Text.occursIn phrase lowered := by
  have hplain : ∀ phrase ∈ searchedPhrases, Text.IsSearchPhrase phrase.toList := by decide
  exact fun phrase hphrase => Text.mentions_eq_occursIn (hplain phrase hphrase) h

/-- A phrase with a `k` in it would be missed in the Kelvin sign. -/
example : Text.IsLowered "\u212a" "k" ∧ Text.mentions "k" "\u212a" = false ∧
    Text.occursIn "k" "k" = true :=
  ⟨⟨[['k']], .cons .kelvin .nil, rfl⟩, by decide, by decide⟩

end NodeFleet
