import Mathlib.Data.List.DropRight
import NodeFleet.Daemon.Reading
import NodeFleet.Proofs.Escapes
import NodeFleet.Proofs.ShellWords
import NodeFleet.Proofs.Words

/-!
# NodeFleet.Proofs.PrintedLines — what a reply keeps of the text that was printed

Every reading of an answer rests on the lines of a reply.  They are a run of the lines that were
printed: carriage returns are gone, then the first line if it echoes the command, then the blank
lines at the end, and nothing else.

* `Text.AreLines`: what it is to be the lines of a text.  `Text.areLines_lines`: `Text.lines` are.
* `Text.split_eq_lines`: lines and pieces differ by a blank piece at the end.
* `Reply.IsCut`: what is kept of the printed lines.  `Reply.cut_append`: blank lines more or less at
  the end make no difference to it.
* `Text.infix_join`, `confirms_iff`, `confirms_iff_infix`: what stands in joined lines stands in one
  of them, as a hash does that a listing confirms.
* `Reply.Prints`, `Reply.ofText_prints`: the lines of a reply, and what is seen of them.
-/

namespace NodeFleet

namespace Text

/-! ## The lines of a text -/

/-- The lines with a line feed after each of them. -/
def ended (lines : List String) : List Char := lines.flatMap fun line => line.toList ++ ['\n']

/-- The text needs no further line feed: it is empty, or ends with one. -/
def IsClosed (s : String) : Prop := s = "" ∨ s.toList.getLast? = some '\n'

/-- The lines of a text: none holds a line feed, and with a line feed after each of them they are
the text, which may lack the last line feed. -/
structure AreLines (lines : List String) (s : String) : Prop where
  unbroken : ∀ line ∈ lines, '\n' ∉ line.toList
  closed : IsClosed s → ended lines = s.toList
  unclosed : ¬ IsClosed s → ended lines = s.toList ++ ['\n']

section Pieces

variable {sep : Char} {cs ds : List Char}

theorem splitChars_sep : splitChars sep (sep :: cs) = [] :: splitChars sep cs := by
  obtain ⟨piece, pieces, h⟩ := List.exists_cons_of_ne_nil (splitChars_ne_nil sep cs)
  simp [splitChars, h]

/-- A separator ends the pieces before it. -/
theorem splitChars_append :
    splitChars sep (cs ++ sep :: ds) = splitChars sep cs ++ splitChars sep ds := by
  induction cs with
  | nil => rw [List.nil_append, splitChars_sep]; rfl
  | cons c cs ih =>
    obtain ⟨piece, pieces, h⟩ := List.exists_cons_of_ne_nil (splitChars_ne_nil sep cs)
    rw [List.cons_append]
    rw [h] at ih
    by_cases hc : c = sep <;> simp [splitChars, h, ih, hc]

/-- With a separator after each of them the pieces are the list and one separator more. -/
theorem splitChars_ended (sep : Char) (cs : List Char) :
    ((splitChars sep cs).flatMap fun piece => piece ++ [sep]) = cs ++ [sep] := by
  induction cs with
  | nil => rfl
  | cons c cs ih =>
    obtain ⟨piece, pieces, h⟩ := List.exists_cons_of_ne_nil (splitChars_ne_nil sep cs)
    rw [h] at ih
    by_cases hc : c = sep <;> simp_all [splitChars]

/-- With a separator after each piece, the list of all of them ends with one. -/
theorem getLast?_ended (pieces : List (List Char)) :
    (pieces.flatMap fun piece => piece ++ [sep]) = [] ∨
      (pieces.flatMap fun piece => piece ++ [sep]).getLast? = some sep := by
  induction pieces using List.reverseRecOn with
  | nil => exact .inl rfl
  | append_singleton pieces piece _ => exact .inr (by simp [List.flatMap_append])

/-- The last piece is empty when nothing stands after the last separator. -/
theorem splitChars_getLast?_nil :
    (splitChars sep cs).getLast? = some [] ↔ cs = [] ∨ cs.getLast? = some sep := by
  constructor
  · intro h
    obtain ⟨before, hpieces⟩ := List.getLast?_eq_some_iff.mp h
    have hended := splitChars_ended sep cs
    rw [hpieces, List.flatMap_append, List.flatMap_singleton, List.nil_append,
      List.append_left_inj] at hended
    rw [← hended]
    exact getLast?_ended before
  · rintro (rfl | h)
    · rfl
    · obtain ⟨before, rfl⟩ := List.getLast?_eq_some_iff.mp h
      rw [splitChars_append]
      exact List.getLast?_concat

end Pieces

variable {s : String}

theorem isClosed_iff : IsClosed s ↔ (splitChars '\n' s.toList).getLast? = some [] := by
  rw [splitChars_getLast?_nil, String.toList_eq_nil_iff]
  rfl

/-- Between the lines and the pieces there is no difference but an empty piece at the end. -/
theorem split_eq_lines (s : String) :
    (IsClosed s ∧ split '\n' s = lines s ++ [""]) ∨ (¬ IsClosed s ∧ split '\n' s = lines s) := by
  unfold split lines linesOfChars
  rw [isClosed_iff]
  dsimp only
  split
  · rename_i hlast
    obtain ⟨before, hpieces⟩ := List.getLast?_eq_some_iff.mp hlast
    refine .inl ⟨hlast, ?_⟩
    rw [hpieces, List.dropLast_concat, List.map_append]
    rfl
  · exact .inr ⟨‹_›, rfl⟩

theorem ended_split (s : String) : ended (split '\n' s) = s.toList ++ ['\n'] := by
  unfold ended split
  rw [List.flatMap_map]
  simpa using splitChars_ended '\n' s.toList

theorem areLines_lines (s : String) : AreLines (lines s) s := by
  have hsplit := ended_split s
  obtain ⟨hclosed, h⟩ | ⟨hopen, h⟩ := split_eq_lines s
  · rw [h, ended, List.flatMap_append] at hsplit
    exact ⟨fun line hline => (mem_lines hline).1, fun _ => List.append_cancel_right hsplit,
      fun hopen => absurd hclosed hopen⟩
  · rw [h] at hsplit
    exact ⟨fun line hline => (mem_lines hline).1, fun hclosed => absurd hclosed hopen,
      fun _ => hsplit⟩

/-- The pieces of a blank text are blank. -/
theorem isBlankText_of_mem_split {line : String} (hs : isBlankText s = true)
    (h : line ∈ split '\n' s) : isBlankText line = true := by
  obtain ⟨piece, hpiece, rfl⟩ := List.mem_map.mp h
  unfold isBlankText at hs ⊢
  rw [List.all_eq_true] at hs ⊢
  intro c hc
  rw [String.toList_ofList] at hc
  exact hs c (mem_of_mem_splitChars hpiece hc)

/-- The text without a character. -/
def without (c : Char) (s : String) : String := .ofList (s.toList.filter (· != c))

/-- To put nothing for a character is to leave it out. -/
theorem replaceChar_nothing (c : Char) (s : String) : replaceChar c "" s = without c s := by
  have hchars : replaceChars c [] s.toList = s.toList.filter (· != c) := by
    unfold replaceChars
    induction s.toList with
    | nil => rfl
    | cons d ds ih => by_cases hd : d = c <;> simp_all
  unfold replaceChar
  exact congrArg String.ofList hchars

theorem toList_without (c : Char) (s : String) : (without c s).toList = s.toList.filter (· != c) :=
  String.toList_ofList

/-- A line feed with more text after it begins with a new piece. -/
theorem split_without (s t : String) : split '\n' (without '\r' (s ++ "\n" ++ t)) =
    split '\n' (without '\r' s) ++ split '\n' (without '\r' t) := by
  have hchars : (without '\r' (s ++ "\n" ++ t)).toList =
      (without '\r' s).toList ++ '\n' :: (without '\r' t).toList := by
    simp [toList_without]
  unfold split
  rw [hchars, splitChars_append, List.map_append]

theorem isBlankText_without (c : Char) {s : String} (h : isBlankText s = true) :
    isBlankText (without c s) = true := by
  unfold isBlankText at h ⊢
  rw [List.all_eq_true] at h ⊢
  rw [toList_without]
  exact fun d hd => h d (List.mem_of_mem_filter hd)

/-! ## Texts in joined lines -/

/-- What holds no line feed stands in joined lines exactly when it stands in one of them. -/
theorem infix_join {pat : List Char} (hpat : '\n' ∉ pat) (hne : pat ≠ []) (lines : List String) :
    pat <:+: (join "\n" lines).toList ↔ ∃ line ∈ lines, pat <:+: line.toList := by
  induction lines with
  | nil => simpa [join] using hne
  | cons line lines ih =>
    cases lines with
    | nil => simp [join_singleton]
    | cons next lines =>
      have hfeed : (join "\n" (line :: next :: lines)).toList =
          line.toList ++ '\n' :: (join "\n" (next :: lines)).toList := by
        rw [join_cons_cons]
        simp
      rw [hfeed, infix_around hpat, ih]
      simp

/-- Nothing but empty lines is joined to an empty text. -/
theorem join_eq_empty {sep : String} {lines : List String} (h : join sep lines = "") :
    ∀ line ∈ lines, "" = line := by
  induction lines with
  | nil => simp
  | cons line lines ih =>
    cases lines with
    | nil => simpa [join_singleton, eq_comm] using h
    | cons next lines =>
      rw [join_cons_cons, String.append_eq_empty_iff, String.append_eq_empty_iff] at h
      obtain ⟨⟨hline, -⟩, hrest⟩ := h
      exact List.forall_mem_cons.mpr ⟨hline.symm, ih hrest⟩

/-- Nothing is left of a text by trimming exactly when it is blank. -/
theorem trim_eq_empty_iff {s : String} : trim s = "" ↔ isBlankText s = true := by
  have hstrip : stripChars isBlank s.toList = (s.toList.dropWhile isBlank).rdropWhile isBlank := rfl
  rw [← String.toList_inj, trim, String.toList_ofList, hstrip, isBlankText, List.all_eq_true,
    ← List.dropWhile_eq_nil_iff]
  constructor
  · intro h
    by_contra hne
    -- what is left at the front begins with a character that is not blank
    obtain ⟨c, cs, hcs⟩ := List.exists_cons_of_ne_nil hne
    have hhead := List.head?_dropWhile_not isBlank s.toList
    rw [hcs] at h hhead
    have hc := List.rdropWhile_eq_nil_iff.mp h c List.mem_cons_self
    simp [hc] at hhead
  · intro h
    rw [h]
    rfl

end Text

/-! ## What is kept -/

/-- A listing confirms a hash when one of its lines holds it, and the hash is not empty. -/
theorem confirms_iff {reply : Reply} {hash : String} :
    confirms reply hash = true ↔ hash ≠ "" ∧ ∃ line ∈ reply.lines, Text.occursIn hash line := by
  unfold confirms
  simp

namespace Reply

variable {command : String} {printed kept blanks : List String}

/-- The first line, if it is the command up to blanks. -/
def echo (command : String) (printed : List String) : List String :=
  (printed.head?.filter fun first => Text.trim first = Text.trim command).toList

theorem echo_append_dropEcho (command : String) (printed : List String) :
    echo command printed ++ dropEcho command printed = printed := by
  cases printed with
  | nil => rfl
  | cons first rest =>
    by_cases h : Text.trim first = Text.trim command <;> simp [echo, dropEcho, h, Option.filter]

/-- What is kept of the printed lines: all but an echo of the command and the blank lines at the
end. -/
def IsCut (command : String) (printed kept : List String) : Prop :=
  ∃ blankEnd, printed = echo command printed ++ (kept ++ blankEnd) ∧
    (∀ line ∈ blankEnd, Text.isBlankText line = true) ∧
    ∀ line, kept.getLast? = some line → Text.isBlankText line = false

theorem dropBlankEnd_eq (lines : List String) :
    dropBlankEnd lines = lines.rdropWhile Text.isBlankText := rfl

/-- The lines of a reply are a cut of the printed lines. -/
theorem isCut_dropBlankEnd (command : String) (printed : List String) :
    IsCut command printed (dropBlankEnd (dropEcho command printed)) := by
  have hparts := List.rdropWhile_append_rtakeWhile (p := Text.isBlankText)
    (l := dropEcho command printed)
  refine ⟨(dropEcho command printed).rtakeWhile Text.isBlankText, ?_, ?_, ?_⟩
  · rw [dropBlankEnd_eq, hparts, echo_append_dropEcho]
  · intro line hline
    exact List.mem_rtakeWhile_imp hline
  · intro line hlast
    obtain ⟨before, hbefore⟩ := List.getLast?_eq_some_iff.mp hlast
    rw [dropBlankEnd_eq] at hbefore
    have hne : (dropEcho command printed).rdropWhile Text.isBlankText ≠ [] := by
      rw [hbefore]
      exact List.append_ne_nil_of_right_ne_nil _ (List.cons_ne_nil _ _)
    have hnot := List.rdropWhile_last_not Text.isBlankText _ hne
    simpa [hbefore] using hnot

/-- Blank lines more or less at the end make no difference. -/
theorem dropBlankEnd_append (hblanks : ∀ line ∈ blanks, Text.isBlankText line = true) :
    dropBlankEnd (printed ++ blanks) = dropBlankEnd printed := by
  induction blanks using List.reverseRecOn with
  | nil => rw [List.append_nil]
  | append_singleton blanks line ih =>
    obtain ⟨hbefore, hline⟩ := List.forall_mem_append.mp hblanks
    rw [← List.append_assoc, dropBlankEnd_eq,
      List.rdropWhile_concat_pos _ _ _ (hline line (List.mem_singleton.mpr rfl))]
    exact ih hbefore

theorem dropBlankEnd_blank (hblanks : ∀ line ∈ blanks, Text.isBlankText line = true) :
    dropBlankEnd blanks = [] := by
  show dropBlankEnd ([] ++ blanks) = dropBlankEnd []
  exact dropBlankEnd_append hblanks

/-- The same with the echo dropped first, also where the only line to drop is a blank one. -/
theorem cut_append (hblanks : ∀ line ∈ blanks, Text.isBlankText line = true) :
    dropBlankEnd (dropEcho command (printed ++ blanks)) =
      dropBlankEnd (dropEcho command printed) := by
  cases printed with
  | nil =>
    refine dropBlankEnd_blank fun line hline => ?_
    exact hblanks line (mem_of_mem_dropEcho hline)
  | cons first rest =>
    have hecho : dropEcho command (first :: rest ++ blanks) =
        dropEcho command (first :: rest) ++ blanks := by
      by_cases h : Text.trim first = Text.trim command <;> simp [dropEcho, h]
    rw [hecho, dropBlankEnd_append hblanks]

/-! ## The reply in a printed text -/

variable {raw : String} {status status' : Option Int}

theorem ofText_lines : (ofText command raw status).lines =
    dropBlankEnd (dropEcho command (Text.lines (Text.without '\r' raw))) := by
  simp only [ofText, Text.replaceChar_nothing]

/-- The lines of a reply are cut from the pieces of the text as they are from its lines. -/
theorem ofText_split : (ofText command raw status).lines =
    dropBlankEnd (dropEcho command (Text.split '\n' (Text.without '\r' raw))) := by
  have hempty : ∀ line ∈ [""], Text.isBlankText line = true := by decide
  rw [ofText_lines]
  obtain ⟨-, h⟩ | ⟨-, h⟩ := Text.split_eq_lines (Text.without '\r' raw)
  · rw [h, cut_append hempty]
  · rw [h]

theorem ofText_returns {other : String} (h : Text.without '\r' other = Text.without '\r' raw) :
    (ofText command other status').lines = (ofText command raw status).lines := by
  rw [ofText_lines, ofText_lines, h]

theorem ofText_blanks {blanks : String} (h : Text.isBlankText blanks = true) :
    (ofText command (raw ++ "\n" ++ blanks) status').lines = (ofText command raw status).lines := by
  have hblank := Text.isBlankText_without '\r' h
  rw [ofText_split, ofText_split, Text.split_without]
  exact cut_append fun line hline => Text.isBlankText_of_mem_split hblank hline

section Seen

variable {reply : Reply}

/-- The reply has no blank last line. -/
def IsTight (reply : Reply) : Prop :=
  ∀ line, reply.lines.getLast? = some line → Text.isBlankText line = false

/-- A reply without a blank last line is blank only when there is nothing in it. -/
theorem IsTight.blank_iff (h : reply.IsTight) :
    (∀ line ∈ reply.lines, Text.isBlankText line = true) ↔ reply.lines = [] := by
  constructor
  · intro hblank
    by_contra hne
    obtain ⟨line, hlast⟩ := Option.ne_none_iff_exists'.mp (mt List.getLast?_eq_none_iff.mp hne)
    have hline := hblank line (List.mem_of_getLast? hlast)
    have hnot := h line hlast
    rw [hline] at hnot
    cases hnot
  · intro hnil
    simp [hnil]

theorem firstLine?_eq_none :
    reply.firstLine? = none ↔ ∀ line ∈ reply.lines, Text.isBlankText line = true := by
  unfold firstLine?
  simp [List.find?_eq_none, Text.trim_eq_empty_iff]

theorem IsTight.text_iff (h : reply.IsTight) : reply.text = "" ↔ reply.lines = [] := by
  refine ⟨fun hempty => h.blank_iff.mp fun line hline => ?_, fun hnil => ?_⟩
  · rw [← Text.join_eq_empty hempty line hline]
    rfl
  · unfold text
    rw [hnil]
    rfl

/-- A hash without a line feed is confirmed when it occurs anywhere in the text. -/
theorem confirms_iff_infix {hash : String} (h : '\n' ∉ hash.toList) :
    confirms reply hash = true ↔ hash ≠ "" ∧ hash.toList <:+: reply.text.toList := by
  rw [confirms_iff]
  refine and_congr_right fun hne => ?_
  have hchars : hash.toList ≠ [] := by simpa using hne
  rw [text, Text.infix_join h hchars]
  simp [Text.occursIn_iff]

end Seen

/-- What the lines of a reply are of the text that was printed, and what is seen of them. -/
structure Prints (command raw : String) (reply : Reply) : Prop where
  unbroken : ∀ line ∈ reply.lines, '\n' ∉ line.toList ∧ '\r' ∉ line.toList
  cut : ∃ printed, Text.AreLines printed (Text.without '\r' raw) ∧
    IsCut command printed reply.lines
  blank : reply.isBlank = true ↔ reply.lines = []
  first : reply.firstLine? = none ↔ reply.lines = []
  empty : reply.text = "" ↔ reply.lines = []
  returns : ∀ (other : String) (status : Option Int),
    Text.without '\r' other = Text.without '\r' raw →
      (ofText command other status).lines = reply.lines
  blanks : ∀ (blanks : String) (status : Option Int), Text.isBlankText blanks = true →
    (ofText command (raw ++ "\n" ++ blanks) status).lines = reply.lines
  confirmed : ∀ hash : String, '\n' ∉ hash.toList →
    (confirms reply hash = true ↔ hash ≠ "" ∧ hash.toList <:+: reply.text.toList)

/-- A reply has a normal form: its lines are the printed lines without carriage returns, without an
echo of the command at their beginning, and without blank lines at their end. -/
theorem ofText_prints (command raw : String) (status : Option Int) :
    (ofText command raw status).Prints command raw := by
  have hcut : IsCut command (Text.lines (Text.without '\r' raw))
      (ofText command raw status).lines := by
    rw [ofText_lines]
    exact isCut_dropBlankEnd _ _
  -- with no blank line at its end, a reply of blank lines is one of no lines
  have htight : (ofText command raw status).IsTight := by
    obtain ⟨blankEnd, -, -, hlast⟩ := hcut
    exact hlast
  have hblank : (ofText command raw status).isBlank = true ↔
      ∀ line ∈ (ofText command raw status).lines, Text.isBlankText line = true := by
    rw [isBlank, List.all_eq_true]
  exact
    { unbroken := fun line hline => unbroken hline
      cut := ⟨_, Text.areLines_lines _, hcut⟩
      blank := hblank.trans htight.blank_iff
      first := firstLine?_eq_none.trans htight.blank_iff
      empty := htight.text_iff
      returns := fun other status' => ofText_returns
      blanks := fun blanks status' => ofText_blanks
      confirmed := fun hash => confirms_iff_infix }

/-- An echo with nothing but blanks after it, and a carriage return within a line. -/
example : (ofText "uptime" "uptime\r\n \r\n" none).lines = [] ∧
    (ofText "uptime" "up\rtime\n up 3 days\r\n\n" none).lines = [" up 3 days"] := by
  decide +kernel

end Reply

end NodeFleet
