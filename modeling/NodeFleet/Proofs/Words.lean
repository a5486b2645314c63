import NodeFleet.Remote.Reply

/-!
# NodeFleet.Proofs.Words — the words of a text, and what trimming leaves

Lines of configuration are put together from pieces with spaces between them, and are read by
cutting them at blanks.

* `Text.IsWord`: a text that is one word.  `Text.IsInert`: one that also holds no double quote.
* `Text.words_space`: the words of two texts with a space between them.
* `Text.words_eq_singleton`, `Text.isWord_of_mem`: a text is its only word when it is a word.
* `Text.trimBoth_bare`: what is trimmed does not begin or end with what was trimmed away.
* `Text.isInert_trimBoth`: what has to stand between double quotes for the rest to be inert.
* `Reply.unbroken`: no line of a printed reply holds a line break.
-/

namespace NodeFleet

namespace Text

/-! ## Words -/

/-- The text is one word: it is not empty, and holds no blank. -/
def IsWord (s : String) : Prop := s ≠ "" ∧ ∀ c ∈ s.toList, isBlank c = false

-- by the characters of the text; the decision that is found otherwise is by all characters
instance (s : String) : Decidable (IsWord s) :=
  @instDecidableAnd _ _ _ (List.decidableBAll (isBlank · = false) s.toList)

/-- The text is one word without a double quote. -/
def IsInert (s : String) : Prop := IsWord s ∧ '"' ∉ s.toList

section Chars

variable {c d : Char} {cs ds : List Char}

-- one equation for every tail: the generated ones split on it and on the words after it
theorem wordsOfChars_cons : wordsOfChars (c :: cs) =
    if isBlank c then wordsOfChars cs else
      match cs with
      | [] => [[c]]
      | d :: _ =>
        if isBlank d then [c] :: wordsOfChars cs else
          match wordsOfChars cs with
          | [] => [[c]]
          | word :: words => (c :: word) :: words := rfl

theorem wordsOfChars_singleton (h : isBlank c = false) : wordsOfChars [c] = [[c]] := by
  rw [wordsOfChars_cons, if_neg (by simp [h])]

theorem wordsOfChars_blank (h : isBlank c = true) : wordsOfChars (c :: cs) = wordsOfChars cs := by
  rw [wordsOfChars_cons, if_pos h]

/-- A blank ends a word. -/
theorem wordsOfChars_last (h : isBlank c = false) (hd : isBlank d = true) :
    wordsOfChars (c :: d :: cs) = [c] :: wordsOfChars cs := by
  rw [wordsOfChars_cons, if_neg (by simp [h])]
  simp only [hd, if_true, wordsOfChars_blank hd]

/-- Any other character goes on with the word. -/
theorem wordsOfChars_more (cs : List Char) (h : isBlank c = false) (hd : isBlank d = false) :
    ∃ word words, wordsOfChars (d :: cs) = word :: words ∧
      wordsOfChars (c :: d :: cs) = (c :: word) :: words := by
  have hsome : wordsOfChars (d :: cs) ≠ [] := by
    cases cs with
    | nil => simp [wordsOfChars_singleton hd]
    | cons e cs =>
      rw [wordsOfChars_cons, if_neg (by simp [hd])]
      dsimp only
      split
      · simp
      · split
        · simp
        · simp
  obtain ⟨word, words, hwords⟩ := List.exists_cons_of_ne_nil hsome
  refine ⟨word, words, hwords, ?_⟩
  rw [wordsOfChars_cons, if_neg (by simp [h])]
  simp [hd, hwords]

/-- A blank separates the words before it from the words after it. -/
theorem wordsOfChars_append (hd : isBlank d = true) :
    wordsOfChars (cs ++ d :: ds) = wordsOfChars cs ++ wordsOfChars ds := by
  -- along the front text, whose last word ends at the blank whatever follows it
  induction cs with
  | nil => exact wordsOfChars_blank hd
  | cons c cs ih =>
    by_cases hc : isBlank c = true
    · rw [List.cons_append, wordsOfChars_blank hc, wordsOfChars_blank hc, ih]
    have hc : isBlank c = false := by simpa using hc
    cases cs with
    | nil =>
      rw [List.singleton_append, wordsOfChars_last hc hd, wordsOfChars_singleton hc,
        List.singleton_append]
    | cons e cs =>
      by_cases he : isBlank e = true
      · rw [List.cons_append, List.cons_append, wordsOfChars_last hc he, wordsOfChars_last hc he]
        rw [List.cons_append, wordsOfChars_blank he, wordsOfChars_blank he] at ih
        rw [ih, List.cons_append]
      have he : isBlank e = false := by simpa using he
      obtain ⟨word, words, hwords, hmore⟩ := wordsOfChars_more cs hc he
      obtain ⟨word', words', hwords', hmore'⟩ := wordsOfChars_more (cs ++ d :: ds) hc he
      rw [List.cons_append, hwords', hwords, List.cons_append, List.cons.injEq] at ih
      obtain ⟨rfl, rfl⟩ := ih
      rw [List.cons_append, List.cons_append, hmore', hmore, List.cons_append]

/-- A word is not empty, and holds no blank. -/
theorem mem_wordsOfChars {word : List Char} (h : word ∈ wordsOfChars cs) :
    word ≠ [] ∧ ∀ c ∈ word, isBlank c = false := by
  -- along the text: a character begins a word, is a blank, or goes before the first word of the
  -- rest
  induction cs generalizing word with
  | nil => exact absurd h List.not_mem_nil
  | cons c cs ih =>
    by_cases hc : isBlank c = true
    · rw [wordsOfChars_blank hc] at h
      exact ih h
    have hc : isBlank c = false := by simpa using hc
    cases cs with
    | nil =>
      obtain rfl : word = [c] := by simpa [wordsOfChars_singleton hc] using h
      simp [hc]
    | cons d cs =>
      by_cases hd : isBlank d = true
      · rw [wordsOfChars_last hc hd] at h
        rw [wordsOfChars_blank hd] at ih
        obtain rfl | h := List.mem_cons.mp h
        · simp [hc]
        · exact ih h
      · obtain ⟨first, rest, hwords, hmore⟩ :=
          wordsOfChars_more cs hc (d := d) (by simpa using hd)
        rw [hmore] at h
        rw [hwords] at ih
        obtain rfl | h := List.mem_cons.mp h
        · obtain ⟨-, hfirst⟩ := ih List.mem_cons_self
          exact ⟨by simp, List.forall_mem_cons.mpr ⟨hc, hfirst⟩⟩
        · exact ih (List.mem_cons_of_mem _ h)

theorem wordsOfChars_of_word (hne : cs ≠ []) (h : ∀ c ∈ cs, isBlank c = false) :
    wordsOfChars cs = [cs] := by
  induction cs with
  | nil => exact absurd rfl hne
  | cons c cs ih =>
    obtain ⟨hc, hcs⟩ := List.forall_mem_cons.mp h
    cases cs with
    | nil => exact wordsOfChars_singleton hc
    | cons d cs =>
      obtain ⟨word, words, hwords, hmore⟩ :=
        wordsOfChars_more cs hc (hcs d List.mem_cons_self)
      rw [ih (by simp) hcs, List.cons.injEq] at hwords
      obtain ⟨rfl, rfl⟩ := hwords
      exact hmore

end Chars

variable {s t : String}

/-- The words of two texts with a space between them. -/
theorem words_space : words (s ++ " " ++ t) = words s ++ words t := by
  have hspace : (" " : String).toList = [' '] := rfl
  unfold words
  rw [String.toList_append, String.toList_append, hspace, List.append_assoc, List.singleton_append,
    wordsOfChars_append (by decide), List.map_append]

theorem isWord_of_mem (h : s ∈ words t) : IsWord s := by
  obtain ⟨word, hword, rfl⟩ := List.mem_map.mp h
  obtain ⟨hne, hblank⟩ := mem_wordsOfChars hword
  refine ⟨fun hempty => hne ?_, ?_⟩
  · simpa using congrArg String.toList hempty
  · simpa using hblank

/-- A word is its only word. -/
theorem words_eq_singleton : words s = [s] ↔ IsWord s := by
  constructor
  · intro h
    exact isWord_of_mem (t := s) (by simp [h])
  · rintro ⟨hne, hblank⟩
    unfold words
    rw [wordsOfChars_of_word (by simpa using hne) hblank, List.map_singleton, String.ofList_toList]

/-- A number is written without blanks. -/
theorem number_not_blank (n : Nat) : ∀ c ∈ (toString n).toList, isBlank c = false := by
  intro c hc
  have hrepr : (toString n).toList = Nat.toDigits 10 n := by
    show (Nat.repr n).toList = _
    simp [Nat.repr]
  rw [hrepr] at hc
  have hdigit : 48 ≤ c.toNat ∧ c.toNat ≤ 57 := by
    simpa [Char.isDigit, UInt32.le_iff_toNat_le] using
      Nat.isDigit_of_mem_toDigits (by decide) (by decide) hc
  simp only [isBlank, Bool.or_eq_false_iff, Bool.and_eq_false_iff, decide_eq_false_iff_not,
    beq_eq_false_iff_ne]
  omega

/-! ## Trimming -/

section Strip

variable {p : Char → Bool} {cs : List Char}

theorem stripChars_sublist : (stripChars p cs).Sublist cs := by
  unfold stripChars
  have h := (List.dropWhile_sublist p (l := (cs.dropWhile p).reverse)).reverse
  rw [List.reverse_reverse] at h
  exact h.trans (List.dropWhile_sublist p)

theorem stripChars_last {c : Char} (h : (stripChars p cs).getLast? = some c) : p c = false := by
  unfold stripChars at h
  rw [List.getLast?_reverse] at h
  simpa [h] using List.head?_dropWhile_not p (cs.dropWhile p).reverse

theorem stripChars_head {c : Char} (h : (stripChars p cs).head? = some c) : p c = false := by
  -- what is left after the end has been trimmed is a prefix of what was there before
  obtain ⟨tail, htail⟩ : stripChars p cs <+: cs.dropWhile p := by
    unfold stripChars
    rw [← List.reverse_suffix, List.reverse_reverse]
    exact List.dropWhile_suffix p
  obtain ⟨rest, hrest⟩ := List.head?_eq_some_iff.mp h
  have hhead : (cs.dropWhile p).head? = some c := by
    rw [← htail, hrest]
    rfl
  simpa [hhead] using List.head?_dropWhile_not p cs

theorem takeWhile_eq_replicate (q : Char) (cs : List Char) :
    cs.takeWhile (· == q) = List.replicate (cs.takeWhile (· == q)).length q :=
  List.eq_replicate_of_mem fun c hc => by
    simpa using List.all_eq_true.mp (List.all_takeWhile (p := (· == q))) c hc

/-- What was trimmed away stood around what is left. -/
theorem stripChars_parts (q : Char) (cs : List Char) :
    ∃ n m, cs = List.replicate n q ++ (stripChars (· == q) cs ++ List.replicate m q) := by
  have hend := List.takeWhile_append_dropWhile (p := (· == q))
    (l := (cs.dropWhile (· == q)).reverse)
  rw [takeWhile_eq_replicate] at hend
  have hrest := congrArg List.reverse hend
  rw [List.reverse_append, List.reverse_replicate, List.reverse_reverse] at hrest
  have hbegin := List.takeWhile_append_dropWhile (p := (· == q)) (l := cs)
  rw [takeWhile_eq_replicate, ← hrest] at hbegin
  exact ⟨_, _, hbegin.symm⟩

/-- What does not begin with the character is left alone, as is what comes after it. -/
theorem dropWhile_replicate_append {q : Char} {cs : List Char} (n : Nat)
    (h : cs.head? ≠ some q) : (List.replicate n q ++ cs).dropWhile (· == q) = cs := by
  rw [List.dropWhile_append_of_pos fun c hc => by simpa using List.eq_of_mem_replicate hc]
  cases cs with
  | nil => rfl
  | cons c cs => exact List.dropWhile_cons_of_neg (by simpa using h)

theorem stripChars_of_parts {q : Char} (n m : Nat) (hne : cs ≠ []) (h : q ∉ cs) :
    stripChars (· == q) (List.replicate n q ++ (cs ++ List.replicate m q)) = cs := by
  have hhead {ds es : List Char} (hds : ds ≠ []) (hq : q ∉ ds) : (ds ++ es).head? ≠ some q := by
    obtain ⟨d, ds, rfl⟩ := List.exists_cons_of_ne_nil hds
    intro heq
    exact hq (by simpa using Or.inl (Option.some.inj heq).symm)
  unfold stripChars
  rw [dropWhile_replicate_append n (hhead hne h), List.reverse_append, List.reverse_replicate,
    dropWhile_replicate_append m, List.reverse_reverse]
  rw [← List.append_nil cs.reverse]
  exact hhead (by simpa using hne) (by simpa using h)

end Strip

/-- Without the double quotes at its ends a text is inert when nothing but an inert word stands
between them. -/
theorem isInert_trimBoth : IsInert (trimBoth '"' s) ↔ ∃ n m word, IsInert word ∧
    s.toList = List.replicate n '"' ++ (word.toList ++ List.replicate m '"') := by
  constructor
  · intro h
    obtain ⟨n, m, hparts⟩ := stripChars_parts '"' s.toList
    exact ⟨n, m, _, h, by rw [trimBoth, String.toList_ofList, ← hparts]⟩
  · rintro ⟨n, m, word, ⟨⟨hne, hblank⟩, hquote⟩, hparts⟩
    have hword : trimBoth '"' s = word := by
      rw [trimBoth, hparts, stripChars_of_parts n m (by simpa using hne) hquote,
        String.ofList_toList]
    rw [hword]
    exact ⟨⟨hne, hblank⟩, hquote⟩

theorem mem_of_mem_trim {c : Char} (h : c ∈ (trim s).toList) : c ∈ s.toList := by
  rw [trim, String.toList_ofList] at h
  exact stripChars_sublist.subset h

theorem mem_of_mem_trimBoth {c q : Char} (h : c ∈ (trimBoth q s).toList) : c ∈ s.toList := by
  rw [trimBoth, String.toList_ofList] at h
  exact stripChars_sublist.subset h

/-- What is trimmed neither begins nor ends with what was trimmed away. -/
theorem trimBoth_bare (q : Char) (s : String) :
    (trimBoth q s).toList.head? ≠ some q ∧ (trimBoth q s).toList.getLast? ≠ some q := by
  rw [trimBoth, String.toList_ofList]
  exact ⟨fun h => by simpa using stripChars_head h, fun h => by simpa using stripChars_last h⟩

/-! ## Lines -/

/-- A piece of a text has no other characters than the text. -/
theorem mem_of_mem_splitChars {sep c : Char} {cs piece : List Char}
    (h : piece ∈ splitChars sep cs) (hc : c ∈ piece) : c ∈ cs := by
  induction cs generalizing piece with
  | nil =>
    obtain rfl : piece = [] := by simpa [splitChars] using h
    exact hc
  | cons d cs ih =>
    obtain ⟨first, rest, hpieces⟩ := List.exists_cons_of_ne_nil (splitChars_ne_nil sep cs)
    simp only [splitChars, hpieces] at h
    rw [hpieces] at ih
    split at h
    · obtain rfl | h := List.mem_cons.mp h
      · exact absurd hc List.not_mem_nil
      · exact List.mem_cons_of_mem _ (ih h hc)
    · obtain rfl | h := List.mem_cons.mp h
      · obtain rfl | hc := List.mem_cons.mp hc
        · exact List.mem_cons_self
        · exact List.mem_cons_of_mem _ (ih List.mem_cons_self hc)
      · exact List.mem_cons_of_mem _ (ih (List.mem_cons_of_mem _ h) hc)

/-- A line holds no line feed, and no other characters than the text. -/
theorem mem_lines (h : s ∈ lines t) : '\n' ∉ s.toList ∧ ∀ c ∈ s.toList, c ∈ t.toList := by
  obtain ⟨piece, hpiece, rfl⟩ := List.mem_map.mp h
  have hsplit : piece ∈ splitChars '\n' t.toList := by
    unfold linesOfChars at hpiece
    dsimp only at hpiece
    split at hpiece
    · exact List.dropLast_subset _ hpiece
    · exact hpiece
  rw [String.toList_ofList]
  exact ⟨not_mem_of_mem_splitChars hsplit, fun c hc => mem_of_mem_splitChars hsplit hc⟩

/-- What is replaced by nothing is gone. -/
theorem not_mem_replaceChar (c : Char) (s : String) : c ∉ (replaceChar c "" s).toList := by
  rw [replaceChar, String.toList_ofList]
  intro h
  obtain ⟨d, -, hd⟩ := List.mem_flatMap.mp h
  split at hd
  · exact absurd hd List.not_mem_nil
  · obtain rfl := List.mem_singleton.mp hd
    contradiction

end Text

namespace Reply

variable {command line raw : String} {lines : List String} {status : Option Int}

theorem mem_of_mem_dropEcho (h : line ∈ dropEcho command lines) : line ∈ lines := by
  cases lines with
  | nil => exact h
  | cons first rest =>
    rw [dropEcho] at h
    split at h
    · exact List.mem_cons_of_mem _ h
    · exact h

theorem mem_of_mem_dropBlankEnd (h : line ∈ dropBlankEnd lines) : line ∈ lines :=
  List.mem_reverse.mp ((List.dropWhile_sublist _).subset (List.mem_reverse.mp h))

/-- No line of a printed reply holds a line break. -/
theorem unbroken (h : line ∈ (ofText command raw status).lines) :
    '\n' ∉ line.toList ∧ '\r' ∉ line.toList := by
  dsimp only [ofText] at h
  obtain ⟨hfeed, hsub⟩ := Text.mem_lines (mem_of_mem_dropEcho (mem_of_mem_dropBlankEnd h))
  exact ⟨hfeed, fun hreturn => Text.not_mem_replaceChar '\r' raw (hsub _ hreturn)⟩

end Reply

end NodeFleet
