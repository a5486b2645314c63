import Mathlib.Logic.Function.Basic
import NodeFleet.Daemon.Command
import NodeFleet.Proofs.ShellWords

/-!
# NodeFleet.Proofs.FileCommands — what a shell does to the files of a host

A line of commands on files, joined by `&&`, is carried out one command after the other until one
fails; what was done before the failure stays done.

* `HostFiles`: the files of a host.
* `FileCommand`, `FileCommand.run`: removing, moving and allowing a file.
* `Shell.fileCommands?`, `Shell.execute`: a line, read and carried out.
* `Shell.IsPath`: a path in which nothing means anything to a shell.
* `HostFiles.swapIn`, `execute_swapIn`: what putting a staged copy in the place of a file comes to.
-/

namespace NodeFleet

/-- The files of a host, with their contents. -/
abbrev HostFiles : Type := String → Option ByteArray

/-- A command on files. -/
inductive FileCommand where
  /-- Removes a file, if there is one. -/
  | remove (path : String)
  /-- Moves a file over whatever is there. -/
  | move (source target : String)
  /-- Sets the mode of a file. -/
  | allow (path : String)
  deriving DecidableEq, Repr

namespace FileCommand

/-- The command of these words. -/
def ofWords? : List String → Option FileCommand
  | ["rm", "-f", path] => some (.remove path)
  | ["mv", source, target] => some (.move source target)
  | ["chmod", "755", path] => some (.allow path)
  | _ => none

/-- What a command does to the files, unless it fails. -/
def run (disk : HostFiles) : FileCommand → Option HostFiles
  | .remove path => some (Function.update disk path none)
  | .move source target =>
    (disk source).map fun contents =>
      Function.update (Function.update disk source none) target (some contents)
  | .allow path => (disk path).map fun _ => disk

/-- Carries out commands until one fails; the flag says whether all succeeded. -/
def runAll (disk : HostFiles) : List FileCommand → Bool × HostFiles
  | [] => (true, disk)
  | command :: rest =>
    match command.run disk with
    | some changed => runAll changed rest
    | none => (false, disk)

end FileCommand

namespace Shell

/-- The words of the commands that stand with `&&` between them. -/
def sequence : List String → List (List String)
  | [] => [[]]
  | word :: words =>
    if word = "&&" then [] :: sequence words
    else ((sequence words).headD []).cons word :: (sequence words).tail

/-- The commands of a line, if it has commands on files only. -/
def fileCommands? (line : String) : Option (List FileCommand) :=
  (words? line).bind fun words => (sequence words).mapM FileCommand.ofWords?

/-- What a line does to the files; a line that has anything else fails at once. -/
def execute (line : String) (disk : HostFiles) : Bool × HostFiles :=
  match fileCommands? line with
  | some commands => FileCommand.runAll disk commands
  | none => (false, disk)

/-- A character that means nothing to a shell, wherever it stands in a word. -/
def isLiteral (c : Char) : Bool :=
  c.isAlphanum || ['/', '.', '-', '_', '+', ',', ':', '@', '%'].contains c

/-- A path that a shell takes as it stands, and that no command takes for an option. -/
def IsPath (path : String) : Prop :=
  path ≠ "" ∧ path.toList.head? ≠ some '-' ∧ ∀ c ∈ path.toList, isLiteral c = true

instance (path : String) : Decidable (IsPath path) :=
  @instDecidableAnd _ _ _
    (@instDecidableAnd _ _ _ (List.decidableBAll (isLiteral · = true) path.toList))

theorem isPlain_of_isLiteral {c : Char} (h : isLiteral c = true) : isPlain c = true := by
  have hspecial (special : Char) (hspecial : isLiteral special = false) : c ≠ special := by
    rintro rfl
    cases h.symm.trans hspecial
  rw [isPlain_iff]
  refine ⟨?_, hspecial _ (by decide), hspecial _ (by decide), hspecial _ (by decide)⟩
  simp [isSeparator, hspecial ' ' (by decide), hspecial '\t' (by decide), hspecial '\n' (by decide)]

variable {path : String}

theorem IsPath.isBare (h : IsPath path) : IsBare path :=
  ⟨h.1, fun c hc => isPlain_of_isLiteral (h.2.2 c hc)⟩

theorem IsPath.staged (h : IsPath path) : IsPath (stagedPath path) := by
  obtain ⟨hempty, hoption, hliteral⟩ := h
  have hnew : ∀ c ∈ ".new".toList, isLiteral c = true := List.all_eq_true.mp (by decide)
  unfold stagedPath
  refine ⟨by simp, ?_, fun c hc => ?_⟩
  · have hne : path.toList ≠ [] := by simpa using hempty
    obtain ⟨c, cs, hpath⟩ := List.exists_cons_of_ne_nil hne
    rw [hpath] at hoption
    rwa [String.toList_append, hpath]
  · rw [String.toList_append] at hc
    exact (List.mem_append.mp hc).elim (hliteral c) (hnew c)

theorem IsPath.ne_and (h : IsPath path) : path ≠ "&&" := by
  rintro rfl
  have hand : isLiteral '&' = true := h.2.2 '&' (by simp)
  exact absurd hand (by decide)

/-- The words of the line that puts a staged copy in the place of a file. -/
theorem swapIn_words (daemon : Daemon) (h : IsPath path) :
    words? (Command.line ⟨daemon, .swapIn path⟩) =
      some ["rm", "-f", path, "&&", "mv", stagedPath path, path, "&&", "chmod", "755", path] := by
  have hline : Command.line ⟨daemon, .swapIn path⟩ = Text.join " "
      ["rm", "-f", path, "&&", "mv", stagedPath path, path, "&&", "chmod", "755", path] := by
    simp [Command.line, Text.join_cons_cons, Text.join_singleton, ← String.toList_inj]
  have hbare : ∀ word ∈ ["rm", "-f", "&&", "mv", "chmod", "755"], IsBare word := by decide
  rw [hline, words?_join (List.cons_ne_nil _ _)]
  simp only [List.forall_mem_cons] at hbare ⊢
  obtain ⟨hrm, hforce, hand, hmv, hchmod, hmode, hnone⟩ := hbare
  exact ⟨hrm, hforce, h.isBare, hand, hmv, h.staged.isBare, h.isBare, hand, hchmod, hmode, h.isBare,
    hnone⟩

/-- The commands of that line. -/
theorem swapIn_commands (daemon : Daemon) (h : IsPath path) :
    fileCommands? (Command.line ⟨daemon, .swapIn path⟩) =
      some [.remove path, .move (stagedPath path) path, .allow path] := by
  have hsequence : sequence
      ["rm", "-f", path, "&&", "mv", stagedPath path, path, "&&", "chmod", "755", path] =
      [["rm", "-f", path], ["mv", stagedPath path, path], ["chmod", "755", path]] := by
    simp [sequence, h.ne_and, h.staged.ne_and]
  unfold fileCommands?
  rw [swapIn_words daemon h, Option.bind_some, hsequence]
  rfl

end Shell

/-! ## Putting a staged copy in the place of a file -/

namespace HostFiles

variable {path other : String} {disk : HostFiles}

/-- The file goes; the staged copy takes its place if there is one, and else that is a failure. -/
def swapIn (path : String) (disk : HostFiles) : Bool × HostFiles :=
  match disk (stagedPath path) with
  | some contents =>
    (true, Function.update (Function.update disk (stagedPath path) none) path (some contents))
  | none => (false, Function.update disk path none)

theorem stagedPath_ne (path : String) : stagedPath path ≠ path := by
  intro h
  have hlength := congrArg String.length h
  rw [stagedPath, String.length_append] at hlength
  exact absurd hlength (by simp)

/-- The line does just that. -/
theorem execute_swapIn (daemon : Daemon) (h : Shell.IsPath path) (disk : HostFiles) :
    Shell.execute (Command.line ⟨daemon, .swapIn path⟩) disk = disk.swapIn path := by
  have hstaged : Function.update disk path none (stagedPath path) = disk (stagedPath path) :=
    Function.update_of_ne (stagedPath_ne path) _ _
  unfold Shell.execute swapIn
  rw [Shell.swapIn_commands daemon h]
  simp only [FileCommand.runAll, FileCommand.run, hstaged]
  cases disk (stagedPath path) with
  | none => rfl
  | some contents =>
    simp only [Option.map_some, Function.update_self]
    rw [Function.update_comm (stagedPath_ne path).symm, Function.update_idem]

end HostFiles

end NodeFleet
