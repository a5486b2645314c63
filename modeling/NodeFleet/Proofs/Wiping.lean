import NodeFleet.Proofs.Network
import NodeFleet.Proofs.Rosters
import NodeFleet.Proofs.ShellWords

/-!
# NodeFleet.Proofs.Wiping — what a wipe removes

The line of a wipe names twelve paths in the directory of the node configuration.  It is put
together without quotes, so what a host removes is what its shell makes of the line: the twelve
paths exactly when the data directory is written without blanks, quotes and backslashes.

* `Daemon.Wipes`: what goes with the paths of a wipe.
* `Daemon.wipe_words`: the words of the line are the twelve paths for such a data directory only.
* `Daemon.wipe_splits`: of a data directory with a blank in it, the front is removed.
* `Daemon.wipe_removes`: what is removed, and what is kept.
-/

namespace NodeFleet

/-- What is trimmed at the end of a text stands behind its last blank. -/
theorem Text.trimEnd_space {c : Char} (hc : c ≠ ' ') {s t : String} :
    trimEnd c (s ++ " " ++ t) = s ++ " " ++ trimEnd c t := by
  have hstrip (cs ds : List Char) : stripEndChars (· == c) (cs ++ ' ' :: ds) =
      cs ++ ' ' :: stripEndChars (· == c) ds := by
    unfold stripEndChars
    rw [List.reverse_append, List.reverse_cons, List.append_assoc, List.singleton_append,
      List.dropWhile_append]
    split
    · rename_i hnone
      rw [List.isEmpty_iff.mp hnone, List.dropWhile_cons_of_neg (by simpa using hc.symm)]
      simp
    · simp
  simp [trimEnd, ← String.toList_inj, hstrip]

namespace Daemon

/-- The path is one of those that a wipe removes, or lies below one of them. -/
def Wipes (d : Daemon) (path : String) : Prop :=
  ∃ wiped ∈ d.wipedPaths, path = wiped ∨ (wiped ++ "/").toList <+: path.toList

section Paths

variable {d : Daemon} {path : String}

/-- Nothing is removed outside of the directory of the node configuration. -/
theorem Wipes.inside (h : d.Wipes path) : (d.configDir ++ "/").toList <+: path.toList := by
  obtain ⟨wiped, hwiped, hpath⟩ := h
  obtain ⟨entry, -, rfl⟩ := List.mem_map.mp hwiped
  have hdir : (d.configDir ++ "/").toList <+: (d.configDir ++ "/" ++ entry).toList := by
    rw [String.toList_append (s := d.configDir ++ "/")]
    exact List.prefix_append _ _
  obtain rfl | hbelow := hpath
  · exact hdir
  · rw [String.toList_append (s := d.configDir ++ "/" ++ entry)] at hbelow
    exact (hdir.trans (List.prefix_append _ _)).trans hbelow

/-- Of what is in the directory, the chain data is removed. -/
theorem wipes_iff {name : String} : d.Wipes (d.configDir ++ "/" ++ name) ↔
    ∃ entry ∈ chainData, name = entry ∨ (entry ++ "/").toList <+: name.toList := by
  have hsame (entry : String) :
      d.configDir ++ "/" ++ name = d.configDir ++ "/" ++ entry ↔ name = entry :=
    ⟨fun h => by simpa [← String.toList_inj] using h, fun h => by rw [h]⟩
  have hbelow (entry : String) :
      (d.configDir ++ "/" ++ entry ++ "/").toList <+: (d.configDir ++ "/" ++ name).toList ↔
        (entry ++ "/").toList <+: name.toList := by
    simp [List.append_assoc]
  constructor
  · rintro ⟨wiped, hwiped, hpath⟩
    obtain ⟨entry, hentry, rfl⟩ := List.mem_map.mp hwiped
    exact ⟨entry, hentry, hpath.imp (hsame entry).mp (hbelow entry).mp⟩
  · rintro ⟨entry, hentry, hname⟩
    exact ⟨_, List.mem_map_of_mem hentry, hname.imp (hsame entry).mpr (hbelow entry).mpr⟩

end Paths

section Words

variable (config : Config)

theorem wipe_line (d : Daemon) :
    Command.line ⟨d, .wipe⟩ = Text.join " " ("rm" :: "-rf" :: d.wipedPaths) := by
  have hline : Command.line ⟨d, .wipe⟩ = "rm -rf " ++ Text.join " " d.wipedPaths := rfl
  have hrm : "rm" ++ " " ++ ("-rf" ++ " ") = "rm -rf " := rfl
  have hfirst : d.wipedPaths = _ :: _ := rfl
  rw [hline, hfirst, Text.join_cons_cons, Text.join_cons_cons, ← String.append_assoc, hrm]

/-- The names of the chain data need no quotes. -/
theorem chainData_bare : ∀ entry ∈ chainData, Shell.IsBare entry := by decide

/-- A path of the directory needs no quotes exactly when the data directory needs none. -/
theorem path_bare_iff {name : String} (hname : Shell.IsBare name) :
    Shell.IsBare (config.configDir ++ "/" ++ name) ↔
      ∀ c ∈ config.dataDir.toList, Shell.isPlain c = true := by
  obtain ⟨data, slashes, hdata, -, hdir⟩ := config.isDirectory_configDir
  have htestnet : Shell.IsBare "/testnet4" := by decide
  have hslash : ∀ n, ∀ c ∈ List.replicate n '/', Shell.isPlain c = true := fun n c hc =>
    List.eq_of_mem_replicate hc ▸ rfl
  -- what the directory adds to the path of the data is plain
  have hdirectory : (∀ c ∈ config.configDir.toList, Shell.isPlain c = true) ↔
      ∀ c ∈ data.toList, Shell.isPlain c = true := by
    rw [hdir]
    cases config.network with
    | mainnet => rfl
    | testnet =>
      rw [String.toList_append, List.forall_mem_append]
      exact and_iff_left htestnet.2
  have hpath : config.configDir ++ "/" ++ name ≠ "" := fun hempty => hname.1 (by simp_all)
  rw [hdata, List.forall_mem_append, and_iff_left (hslash slashes), ← hdirectory, Shell.IsBare,
    and_iff_right hpath, String.toList_append, String.toList_append, List.forall_mem_append,
    List.forall_mem_append, and_iff_left hname.2]
  exact and_iff_left (hslash 1)

/-- The words of the line are the twelve paths exactly when nothing in the data directory means
anything to the shell's cutting. -/
theorem wipe_words :
    Shell.words? (Command.line ⟨ofConfig config, .wipe⟩) =
        some ("rm" :: "-rf" :: (ofConfig config).wipedPaths) ↔
      ∀ c ∈ config.dataDir.toList, Shell.isPlain c = true := by
  have hrm : Shell.IsBare "rm" := by decide +kernel
  have hforce : Shell.IsBare "-rf" := by decide +kernel
  rw [wipe_line, Shell.words?_join (List.cons_ne_nil _ _), List.forall_mem_cons,
    List.forall_mem_cons, and_iff_right hrm, and_iff_right hforce]
  constructor
  · intro h
    exact (path_bare_iff config (chainData_bare "blocks" List.mem_cons_self)).mp
      (h _ List.mem_cons_self)
  · intro h path hpath
    obtain ⟨entry, hentry, rfl⟩ := List.mem_map.mp hpath
    exact (path_bare_iff config (chainData_bare entry hentry)).mpr h

/-- Of a data directory with a blank in it the front is removed, and not what was meant. -/
theorem wipe_splits {front back : String} (hdata : config.dataDir = front ++ " " ++ back)
    (hfront : Shell.IsBare front) (hback : ∀ c ∈ back.toList, Shell.isPlain c = true) :
    Shell.words? (Command.line ⟨ofConfig config, .wipe⟩) =
      some ("rm" :: "-rf" :: chainData.flatMap fun entry =>
        [front, config.network.configDir back ++ "/" ++ entry]) := by
  have hdir : config.configDir = front ++ " " ++ config.network.configDir back := by
    show config.network.configDir config.dataDir = _
    rw [hdata]
    unfold Network.configDir
    rw [Text.trimEnd_space (by decide)]
    cases config.network with
    | mainnet => rfl
    | testnet => exact String.append_assoc
  -- each path falls apart at the blank, and its front is the same for all
  have hpath : ∀ entry ∈ chainData, Shell.words? (config.configDir ++ "/" ++ entry) =
      some [front, config.network.configDir back ++ "/" ++ entry] := by
    intro entry hentry
    have hrest : Shell.IsBare (config.network.configDir back ++ "/" ++ entry) :=
      (path_bare_iff { config with dataDir := back } (chainData_bare entry hentry)).mpr hback
    rw [hdir, String.append_assoc, String.append_assoc,
      Shell.words?_space (Shell.words?_bare hfront), ← String.append_assoc,
      Shell.words?_bare hrest]
    rfl
  have hpaths : Shell.words? (Text.join " " (ofConfig config).wipedPaths) = _ :=
    Shell.words?_join_map (List.cons_ne_nil _ _) hpath
  have hrm : Shell.words? "rm" = some ["rm"] := Shell.words?_bare (by decide)
  have hforce : Shell.words? "-rf" = some ["-rf"] := Shell.words?_bare (by decide)
  have hfirst : (ofConfig config).wipedPaths = _ :: _ := rfl
  rw [wipe_line, Text.join_cons_cons, Shell.words?_space hrm, hfirst, Text.join_cons_cons,
    Shell.words?_space hforce, ← hfirst, hpaths]
  rfl

end Words

/-- What a wipe removes.  The host's shell makes the twelve paths of the line exactly when the data
directory is written without blanks, quotes and backslashes.  None of the paths is outside of the
directory of the node configuration, and neither the masternode list nor the wallet is removed with
them; the node configuration is kept unless it is itself named like chain data. -/
theorem wipe_removes (config : Config) :
    let d := ofConfig config
    (Shell.words? (Command.line ⟨d, .wipe⟩) = some ("rm" :: "-rf" :: d.wipedPaths) ↔
      ∀ c ∈ config.dataDir.toList, Shell.isPlain c = true) ∧
    (∀ path, d.Wipes path → (d.configDir ++ "/").toList <+: path.toList) ∧
    (d.Wipes d.confPath ↔ ∃ entry ∈ chainData,
      config.confFile = entry ∨ (entry ++ "/").toList <+: config.confFile.toList) ∧
    ¬ d.Wipes d.masternodeListPath ∧ ¬ d.Wipes (d.configDir ++ "/" ++ "wallet.dat") := by
  have hkept (name : String) (hname : ∀ entry ∈ chainData,
      ¬ (name = entry ∨ (entry ++ "/").toList <+: name.toList)) :
      ¬ (ofConfig config).Wipes ((ofConfig config).configDir ++ "/" ++ name) := fun h => by
    obtain ⟨entry, hentry, hsame⟩ := wipes_iff.mp h
    exact hname entry hentry hsame
  refine ⟨wipe_words config, fun path => Wipes.inside, wipes_iff, ?_, ?_⟩
  · have hlist : masternodeListPath (ofConfig config) =
        (ofConfig config).configDir ++ "/" ++ "masternode.conf" := by
      show (ofConfig config).configDir ++ ("/" ++ "masternode.conf") = _
      exact String.append_assoc.symm
    rw [hlist]
    exact hkept _ (by decide)
  · exact hkept _ (by decide)

end Daemon

/-- The description of the pair, with a blank in the name of the data directory. -/
def Config.spaced : Config := { Config.pair with dataDir := "/srv/coin data" }

namespace Daemon

/-- With a blank in its name, what stands before the blank is removed; and a node configuration that
is named like chain data goes with the chain data.  Nothing is wrong with either description. -/
theorem wipe_removes_elsewhere :
    (Config.spaced.validate = .ok () ∧
      Shell.words? (Command.line ⟨ofConfig Config.spaced, .wipe⟩) =
        some ("rm" :: "-rf" :: chainData.flatMap fun entry => ["/srv/coin", "data/" ++ entry]) ∧
      ¬ ((ofConfig Config.spaced).configDir ++ "/").toList <+: "/srv/coin".toList) ∧
    ({ Config.pair with confFile := "blocks" }.validate = .ok () ∧
      (ofConfig { Config.pair with confFile := "blocks" }).confPath ∈
        (ofConfig { Config.pair with confFile := "blocks" }).wipedPaths) := by
  have hvalid {config : Config} (h : config.fault? = none) : config.validate = .ok () := by
    unfold Config.validate
    rw [h]
  refine ⟨⟨hvalid (by decide +kernel), ?_, by decide +kernel⟩, hvalid (by decide +kernel),
    by decide +kernel⟩
  have hsplit : Config.spaced.dataDir = "/srv/coin" ++ " " ++ "data" := rfl
  have hdir : Config.spaced.network.configDir "data" ++ "/" = "data/" := by decide +kernel
  have hwords := wipe_splits Config.spaced hsplit (by decide) (by decide : Shell.IsBare "data").2
  simpa only [hdir] using hwords

end Daemon

end NodeFleet
