import Mathlib.Tactic.SplitIfs
import NodeFleet.Text.Blank

/-!
# NodeFleet.Proofs.ShellWords — the words that a shell makes of a line

A command is sent as a line, and the shell of the host cuts it into words: at blanks, except for
those between quotes or after a backslash; quotes and backslashes that have done their work are
dropped.  What a word stands for after that (a leading tilde, a pattern, a variable) is no part of
the cutting.

* `Shell.words? line`: the words of a line, unless it ends between quotes or after a backslash.
* `Shell.IsBare word`: no character of the word means anything to the cutting, and there is one.
* `Shell.words?_space`: the words of two lines with a space between them.
* `Shell.words?_join`: what is written with single spaces between is read back exactly when
  everything written is bare.
-/

namespace NodeFleet

/-! ## Texts with spaces between them -/

namespace Text

theorem join_singleton (sep line : String) : join sep [line] = line := by
  simp [join]

theorem join_cons_cons (sep line next : String) (lines : List String) :
    join sep (line :: next :: lines) = line ++ sep ++ join sep (next :: lines) := by
  simp [join, ← String.toList_inj]

/-- A space before each of the texts, and none between them. -/
theorem space_join {lines : List String} (hne : lines ≠ []) :
    ' ' :: (join " " lines).toList = lines.flatMap fun line => ' ' :: line.toList := by
  induction lines with
  | nil => exact absurd rfl hne
  | cons line lines ih =>
    cases lines with
    | nil => simp [join_singleton]
    | cons next lines =>
      have hspace : " ".toList = [' '] := rfl
      rw [join_cons_cons, List.flatMap_cons, ← ih (by simp), String.toList_append,
        String.toList_append, hspace, List.append_assoc, List.singleton_append, List.cons_append]

end Text

namespace Shell

/-! ## Reading a line -/

/-- What the characters read so far do to the next one. -/
inductive Quoting where
  /-- Nothing. -/
  | bare
  /-- A backslash stands before it. -/
  | escaped
  /-- It stands between single quotes. -/
  | single
  /-- It stands between double quotes. -/
  | double
  /-- It stands between double quotes, and a backslash stands before it. -/
  | doubleEscaped
  deriving DecidableEq, Repr

/-- A character at which a line is cut. -/
def isSeparator (c : Char) : Bool := c == ' ' || c == '\t' || c == '\n'

/-- A character that changes what others mean. -/
def isQuoting (c : Char) : Bool := c == '\'' || c == '"' || c == '\\'

/-- A character that stands for itself. -/
def isPlain (c : Char) : Bool := !isSeparator c && !isQuoting c

/-- What has been read of a line from some place on: what goes on with the word before that place,
if anything does, and the words after it. -/
structure Reading where
  word? : Option (List Char)
  later : List (List Char)
  deriving DecidableEq, Repr

namespace Reading

/-- Nothing. -/
def none : Reading := ⟨.none, []⟩

/-- One more character at the front of the word. -/
def push (c : Char) (r : Reading) : Reading := ⟨some (c :: r.word?.getD []), r.later⟩

/-- There is a word, though it may be empty. -/
def begin (r : Reading) : Reading := ⟨some (r.word?.getD []), r.later⟩

/-- All words. -/
def words (r : Reading) : List (List Char) := r.word?.toList ++ r.later

/-- The word before has ended. -/
def cut (r : Reading) : Reading := ⟨.none, r.words⟩

/-- Other words follow. -/
def followedBy (r : Reading) (more : List (List Char)) : Reading := ⟨r.word?, r.later ++ more⟩

end Reading

namespace Quoting

/-- How the character after `c` stands. -/
def after (c : Char) : Quoting → Quoting
  | bare =>
    if c = '\'' then single
    else if c = '"' then double
    else if c = '\\' then escaped
    else bare
  | escaped => bare
  | single => if c = '\'' then bare else single
  | double => if c = '"' then bare else if c = '\\' then doubleEscaped else double
  | doubleEscaped => double

/-- What the character adds to what is read after it. -/
def add (c : Char) : Quoting → Reading → Reading
  | bare =>
    if c = '\'' then .begin
    else if c = '"' then .begin
    else if c = '\\' then id
    else if isSeparator c then .cut
    else .push c
  | escaped => if c = '\n' then id else .push c
  | single => if c = '\'' then id else .push c
  | double => if c = '"' then id else if c = '\\' then id else .push c
  | doubleEscaped =>
    if c = '\n' then id
    else if c = '$' || c = '`' || c = '"' || c = '\\' then .push c
    else .push '\\' ∘ .push c

end Quoting

/-- Reads the rest of a line. -/
def read : Quoting → List Char → Option Reading
  | .bare, [] => some .none
  | _, [] => none
  | q, c :: cs => (read (q.after c) cs).map (q.add c)

/-- The words of a line. -/
def words? (line : String) : Option (List String) :=
  (read .bare line.toList).map fun r => r.words.map .ofList

/-- Everything in the word stands for itself, and the word is not empty. -/
def IsBare (word : String) : Prop := word ≠ "" ∧ ∀ c ∈ word.toList, isPlain c = true

instance (word : String) : Decidable (IsBare word) :=
  @instDecidableAnd _ _ _ (List.decidableBAll (isPlain · = true) word.toList)

theorem read_cons (q : Quoting) (c : Char) (cs : List Char) :
    read q (c :: cs) = (read (q.after c) cs).map (q.add c) := by
  cases q <;> rfl

/-! ## Two lines with a space between them -/

section Space

variable {q : Quoting} {r : Reading} {more : List (List Char)} {cs ds : List Char}

theorem add_followedBy (q : Quoting) (c : Char) (r : Reading) (more : List (List Char)) :
    q.add c (r.followedBy more) = (q.add c r).followedBy more := by
  have hcut : (r.followedBy more).cut = r.cut.followedBy more := by
    simp [Reading.cut, Reading.followedBy, Reading.words]
  cases q <;> simp only [Quoting.add] <;> split_ifs <;> first | rfl | exact hcut

/-- A line that is complete is read as if nothing came after the space that ends it. -/
theorem read_space (h : read q cs = some r) :
    read q (cs ++ ' ' :: ds) = (read .bare ds).map fun later => r.followedBy later.words := by
  induction cs generalizing q r with
  | nil =>
    cases q with
    | bare =>
      obtain rfl : Reading.none = r := Option.some.inj h
      rfl
    | _ => exact absurd h (by simp [read])
  | cons c cs ih =>
    rw [read_cons, Option.map_eq_some_iff] at h
    obtain ⟨tail, htail, rfl⟩ := h
    rw [List.cons_append, read_cons, ih htail, Option.map_map]
    exact congrFun (congrArg Option.map (funext fun _ => add_followedBy q c tail _)) _

end Space

variable {line rest word : String} {lines words : List String}

/-- The words of two lines with a space between them. -/
theorem words?_space (h : words? line = some words) :
    words? (line ++ " " ++ rest) = (words? rest).map (words ++ ·) := by
  obtain ⟨r, hr, rfl⟩ := Option.map_eq_some_iff.mp h
  have hspace : (line ++ " " ++ rest).toList = line.toList ++ ' ' :: rest.toList := by
    simp
  unfold words?
  rw [hspace, read_space hr, Option.map_map, Option.map_map]
  congr 1
  funext later
  simp [Reading.words, Reading.followedBy]

/-! ## Bare words -/

section Step

variable {c : Char} {r : Reading}

theorem isPlain_iff :
    isPlain c = true ↔ isSeparator c = false ∧ c ≠ '\'' ∧ c ≠ '"' ∧ c ≠ '\\' := by
  simp [isPlain, isQuoting, and_assoc]

theorem read_plain (h : isPlain c = true) (cs : List Char) :
    read .bare (c :: cs) = (read .bare cs).map (.push c) := by
  obtain ⟨hsep, h₁, h₂, h₃⟩ := isPlain_iff.mp h
  rw [read_cons]
  simp [Quoting.after, Quoting.add, hsep, h₁, h₂, h₃]

theorem read_separator (h : isSeparator c = true) (cs : List Char) :
    read .bare (c :: cs) = (read .bare cs).map .cut := by
  obtain (rfl | rfl) | rfl : (c = ' ' ∨ c = '\t') ∨ c = '\n' := by simpa [isSeparator] using h
  all_goals rfl

end Step

theorem read_bare {cs : List Char} (hne : cs ≠ []) (h : ∀ c ∈ cs, isPlain c = true) :
    read .bare cs = some ⟨some cs, []⟩ := by
  induction cs with
  | nil => exact absurd rfl hne
  | cons c cs ih =>
    obtain ⟨hc, hcs⟩ := List.forall_mem_cons.mp h
    rw [read_plain hc]
    cases cs with
    | nil => rfl
    | cons d cs =>
      rw [ih (by simp) hcs]
      rfl

/-- A bare word is its only word. -/
theorem words?_bare (h : IsBare word) : words? word = some [word] := by
  obtain ⟨hne, hplain⟩ := h
  unfold words?
  rw [read_bare (by simpa using hne) hplain]
  simp [Reading.words]

/-- Texts with single spaces between them are read one after the other. -/
theorem words?_join_map {α : Type} {items : List α} {text : α → String} {read : α → List String}
    (hne : items ≠ []) (h : ∀ a ∈ items, words? (text a) = some (read a)) :
    words? (Text.join " " (items.map text)) = some (items.flatMap read) := by
  induction items with
  | nil => exact absurd rfl hne
  | cons a items ih =>
    obtain ⟨ha, hitems⟩ := List.forall_mem_cons.mp h
    cases items with
    | nil => simpa [Text.join_singleton] using ha
    | cons b items =>
      rw [List.map_cons, List.map_cons, Text.join_cons_cons, words?_space ha, ← List.map_cons,
        ih (by simp) hitems]
      rfl

/-! ## What is lost in the cutting -/

namespace Reading

/-- How long a line is at least of which this is read: one character for each that is kept, and one
between any two words. -/
def size (r : Reading) : Nat :=
  (r.word?.getD []).length + (r.later.flatMap (' ' :: ·)).length

theorem size_push (c : Char) (r : Reading) : (r.push c).size = r.size + 1 := by
  simp only [size, push, Option.getD_some, List.length_cons]
  omega

theorem size_begin (r : Reading) : r.begin.size = r.size := rfl

theorem size_cut_le (r : Reading) : r.cut.size ≤ r.size + 1 := by
  cases h : r.word? with
  | none => simp [size, cut, words, h]
  | some word =>
    simp only [size, cut, words, h, Option.getD_none, Option.getD_some, Option.toList_some,
      List.singleton_append, List.flatMap_cons, List.length_append, List.length_cons,
      List.length_nil]
    omega

end Reading

/-- The number of characters that were read and may still be added. -/
def Quoting.held : Quoting → Nat
  | doubleEscaped => 1
  | _ => 0

/-- A character adds at most itself, and what was held back before it. -/
theorem Quoting.add_size_le (q : Quoting) (c : Char) (r : Reading) :
    (q.add c r).size + (q.after c).held ≤ r.size + 1 + q.held := by
  have hcut := r.size_cut_le
  cases q <;> simp only [Quoting.add, Quoting.after] <;> split_ifs <;>
    simp only [Quoting.held, Reading.size_push, Reading.size_begin, Function.comp, id] <;> omega

/-- Nothing is read that is not in the line. -/
theorem size_le {q : Quoting} {cs : List Char} {r : Reading} (h : read q cs = some r) :
    r.size ≤ cs.length + q.held := by
  induction cs generalizing q r with
  | nil =>
    cases q with
    | bare =>
      obtain rfl : Reading.none = r := Option.some.inj h
      exact Nat.le_refl 0
    | _ => exact absurd h (by simp [read])
  | cons c cs ih =>
    rw [read_cons, Option.map_eq_some_iff] at h
    obtain ⟨tail, htail, rfl⟩ := h
    have htail := ih htail
    have hadd := q.add_size_le c tail
    simp only [List.length_cons]
    omega

/-- A quote and a backslash are dropped. -/
theorem read_quoting {c : Char} {cs : List Char} {r : Reading} (hc : isQuoting c = true)
    (h : read .bare (c :: cs) = some r) : r.size ≤ cs.length := by
  rw [read_cons, Option.map_eq_some_iff] at h
  obtain ⟨tail, htail, rfl⟩ := h
  have hsize := size_le htail
  obtain (rfl | rfl) | rfl : (c = '\'' ∨ c = '"') ∨ c = '\\' := by simpa [isQuoting] using hc
  all_goals exact hsize

/-- Where nothing is lost but what stands between words, everything stands for itself. -/
theorem words_plain {cs : List Char} {r : Reading} (h : read .bare cs = some r)
    (hsize : r.size = cs.length) : ∀ word ∈ r.words, word ≠ [] ∧ ∀ c ∈ word, isPlain c = true := by
  induction cs generalizing r with
  | nil =>
    obtain rfl : Reading.none = r := Option.some.inj h
    exact fun word hword => absurd hword List.not_mem_nil
  | cons c cs ih =>
    rw [List.length_cons] at hsize
    -- a quoting character is lost in the reading, so that the sizes would differ
    by_cases hquote : isQuoting c = true
    · have hlost := read_quoting hquote h
      omega
    by_cases hsep : isSeparator c = true
    · rw [read_separator hsep, Option.map_eq_some_iff] at h
      obtain ⟨tail, htail, rfl⟩ := h
      have htight : tail.size ≤ cs.length := size_le htail
      have hcut := tail.size_cut_le
      have hwords := ih htail (by omega)
      exact hwords
    · have hplain : isPlain c = true := by simp [isPlain, hsep, hquote]
      rw [read_plain hplain, Option.map_eq_some_iff] at h
      obtain ⟨tail, htail, rfl⟩ := h
      rw [Reading.size_push] at hsize
      have hwords := ih htail (by omega)
      refine List.forall_mem_cons.mpr ⟨⟨by simp, List.forall_mem_cons.mpr ⟨hplain, ?_⟩⟩,
        fun word hword => hwords word (List.mem_append_right _ hword)⟩
      cases hword : tail.word? with
      | none => exact fun d hd => absurd hd List.not_mem_nil
      | some word => exact (hwords word (by simp [Reading.words, hword])).2

/-- What is written with single spaces between is read back exactly when everything written is
bare. -/
theorem words?_join (hne : lines ≠ []) :
    words? (Text.join " " lines) = some lines ↔ ∀ line ∈ lines, IsBare line := by
  constructor
  · intro h
    obtain ⟨r, hr, rfl⟩ := Option.map_eq_some_iff.mp h
    have hlong := congrArg List.length (Text.space_join hne)
    -- the words are as long as the text, so that the reading has lost nothing
    have hsize : r.size = (Text.join " " (r.words.map .ofList)).toList.length := by
      have hle : r.size ≤ _ := size_le hr
      have hcut := r.size_cut_le
      have hwords : r.cut.size =
          ((r.words.map String.ofList).flatMap fun line => ' ' :: line.toList).length := by
        simp [Reading.size, Reading.cut, List.flatMap_map]
      rw [List.length_cons] at hlong
      simp only [Quoting.held] at hle
      omega
    have hplain := words_plain hr hsize
    intro line hline
    obtain ⟨word, hword, rfl⟩ := List.mem_map.mp hline
    obtain ⟨hempty, hchars⟩ := hplain word hword
    exact ⟨by simpa [← String.toList_inj] using hempty, by simpa using hchars⟩
  · intro h
    have hread : words? (Text.join " " (lines.map id)) = some (lines.flatMap ([·])) :=
      words?_join_map hne fun line hline => words?_bare (h line hline)
    rwa [List.map_id, List.flatMap_singleton'] at hread

/-- Quotes keep a blank in its word, and are dropped. -/
example : words? "rm -rf '/srv/coin data'/blocks a\\ b" =
    some ["rm", "-rf", "/srv/coin data/blocks", "a b"] := by decide +kernel

end Shell

end NodeFleet
