import CommitReports.Proofs.Files.Directory
import CommitReports.Settings.Load
import Mathlib

/-!
# Which directory the paths of the settings are taken from

The two paths among the settings are taken from the directory of the settings file,
and the current directory has no other part in it: whoever names the file from the
current directory, or with a path of the current directory joined in front, gets the
same settings and, seen from there, the same two paths (`load_join`). The spelling of
the two directories may differ, as the directory of a bare name is a dot; what they
say is the same (`Path.components_join_directory`).

The joined path is longer than the path that was joined and leads through more links,
so the operating system may refuse to follow it where it follows the other
(`load_join_tooLong`).
-/

namespace CommitReports.Settings

variable {s s' : Settings} {env : Environment} {files : Files} {base path : String}

/-- The settings `s'` are the settings `s` with their two paths as seen from `base`; the paths may be
spelled in another way. -/
structure SeenFrom (base : String) (s s' : Settings) : Prop where
  repository : Path.components (Path.join base s.repository) = Path.components s'.repository
  stateFile : Path.components (Path.join base s.stateFile) = Path.components s'.stateFile
  others : { s' with repository := s.repository, stateFile := s.stateFile } = s

/-! ## Loading -/

/-- Both paths are expanded, and taken from the directory. -/
theorem anchored_eq_ok_iff :
    s.anchored env base = .ok s' ↔ ∃ repository stateFile,
      expandPath env s.repository = .ok repository ∧ expandPath env s.stateFile = .ok stateFile ∧
      s' = { s with repository := Path.join base repository, stateFile := Path.join base stateFile } := by
  unfold anchored anchor
  rcases expandPath env s.repository with _ | repository
  · exact iff_of_false nofun nofun
  · rcases expandPath env s.stateFile with _ | stateFile
    · exact iff_of_false nofun nofun
    · constructor
      · intro h
        cases h
        exact ⟨_, _, rfl, rfl, rfl⟩
      · rintro ⟨_, _, hrepository, hstate, rfl⟩
        cases hrepository
        cases hstate
        rfl

/-- The settings that are loaded are those of the text, with their paths taken from the directory
of the file. -/
theorem load_eq_ok_iff :
    load env files path = .ok s ↔ ∃ text written, files.readText path = .ok text ∧
      parse text = .ok written ∧ written.anchored env (Path.directory path) = .ok s := by
  constructor
  · intro h
    unfold load at h
    split at h
    next => cases h
    next text htext =>
    split at h
    next => cases h
    next written hwritten =>
    split at h
    next => cases h
    next settings hanchored =>
    cases h
    exact ⟨text, written, htext, hwritten, hanchored⟩
  · rintro ⟨text, written, htext, hwritten, hanchored⟩
    unfold load
    simp only [htext, hwritten, hanchored]

theorem load_of_readText_error {e : SystemError} (h : files.readText path = .error e) :
    load env files path = .error (.inaccessible path e) := by
  rw [load, h]

/-! ## The same file from another directory -/

/-- What is taken from the directory of a path is what is taken from that of the joined path. -/
theorem exists_anchored_join (hbase : Path.isAbsolute base = true)
    (hpath : ¬Path.isAbsolute path = true) (hmoves : Path.moves path ≠ [])
    (h : s.anchored env (Path.directory path) = .ok s') :
    ∃ s'', s.anchored env (Path.directory (Path.join base path)) = .ok s'' ∧ SeenFrom base s' s'' := by
  obtain ⟨repository, stateFile, hrepository, hstate, rfl⟩ := anchored_eq_ok_iff.mp h
  refine ⟨_, anchored_eq_ok_iff.mpr ⟨repository, stateFile, hrepository, hstate, rfl⟩, ?_⟩
  exact {
    repository := Path.components_join_directory repository hbase hpath hmoves
    stateFile := Path.components_join_directory stateFile hbase hpath hmoves
    others := rfl }

/-- **The paths of the settings belong to the settings file, not to the current directory.** Settings
that load from a relative path load from it joined to any path of the current directory, and seen
from there, both paths are the same. That is all, except where the operating system follows the
first path and not the second: it is too long, or its links are too many. -/
theorem load_join (hbase : Path.isAbsolute base = true)
    (hhere : files.directoryAt base = .ok files.here) (hpath : ¬Path.isAbsolute path = true)
    (h : load env files path = .ok s) :
    (∃ s', load env files (Path.join base path) = .ok s' ∧ SeenFrom base s s') ∨
      Files.maxPathSize ≤ (Path.join base path).utf8ByteSize ∧
        load env files (Path.join base path) =
          .error (.inaccessible (Path.join base path) .nameTooLong) ∨
      files.Exhausts base path ∧
        load env files (Path.join base path) =
          .error (.inaccessible (Path.join base path) .tooManyLinks) := by
  obtain ⟨text, written, htext, hwritten, hanchored⟩ := load_eq_ok_iff.mp h
  obtain ⟨place, executable, hwalk⟩ :=
    Files.exists_walk_of_read (Files.readText_eq_ok_iff.mp htext)
  have hmoves : Path.moves path ≠ [] := Files.moves_ne_nil_of_walk hwalk nofun
  rcases Files.walk_join hbase hhere hpath hwalk with hsame | ⟨hsize, hlong⟩ | ⟨hlinks, hmany⟩
  · obtain ⟨s', hjoined, hseen⟩ := exists_anchored_join hbase hpath hmoves hanchored
    have hread : files.readText (Path.join base path) = .ok text :=
      (Files.readText_congr (hsame.trans hwalk.symm)).trans htext
    exact .inl ⟨s', load_eq_ok_iff.mpr ⟨text, written, hread, hwritten, hjoined⟩, hseen⟩
  · exact .inr (.inl ⟨hsize, load_of_readText_error (Files.readText_of_walk_error hlong)⟩)
  · exact .inr (.inr ⟨hlinks, load_of_readText_error (Files.readText_of_walk_error hmany)⟩)

/-- A document with one path in terms of a variable, and one that is empty. -/
def sampleText : String :=
  "sender = \"a@b\"\nrecipient = \"c@d\"\nrepository = \"$D/..\"\nstate_file = \"\"\n"

/-- An environment with the variable. -/
def sampleEnvironment : Environment := { home := "/home", bindings := [("D", "work//x")] }

theorem parse_sampleText : parse sampleText =
    .ok { sender := "a@b", recipient := "c@d", repository := "$D/..", stateFile := "" } := by
  have hparse : Toml.parse? sampleText = some [("sender", .string "a@b"),
      ("recipient", .string "c@d"), ("repository", .string "$D/.."), ("state_file", .string "")] := by
    cbv
  have hcommand : Text.allBlank "sendmail -t" = false := by decide
  have hremote : Text.allBlank "origin" = false := by decide
  rw [parse, hparse]
  simp [ofEntries, gather, textAt, flagAt, typeFault, fieldTypes, FieldType.fits, List.lookup, fault,
    hcommand, hremote]

/-- A file with the document, in a directory that a link leads to. -/
def sampleFiles : Files :=
  { entries := [(["srv"], .directory), (["srv", "conf"], .directory), (["srv", "etc"], .link "conf"),
      (["srv", "conf", "a.toml"], .file sampleText.toUTF8 false)],
    here := ["srv"] }

theorem exists_load_sample (h : sampleFiles.walk true path =
      .ok (.entry ["srv", "conf", "a.toml"] (.file sampleText.toUTF8 false))) :
    ∃ s, load sampleEnvironment sampleFiles path = .ok s := by
  have hread : sampleFiles.readText path = .ok sampleText := by
    rw [Files.readText_eq_ok_iff, Files.read, h]
  exact ⟨_, load_eq_ok_iff.mpr ⟨sampleText, _, hread, parse_sampleText,
    anchored_eq_ok_iff.mpr ⟨"work//x/..", "", by cbv, by cbv, rfl⟩⟩⟩

theorem walk_sample : sampleFiles.walk true "conf/..//etc/./a.toml" =
    .ok (.entry ["srv", "conf", "a.toml"] (.file sampleText.toUTF8 false)) := by
  have hpath : ¬Path.isAbsolute "conf/..//etc/./a.toml" = true := mt Path.isAbsolute_iff.mp (by decide)
  refine Files.walk_eq_ok_iff.mpr ⟨⟨by cbv, by decide, by decide⟩, ?_⟩
  rw [if_neg hpath]
  unfold sampleFiles
  generalize sampleText.toUTF8 = content
  cbv

theorem load_join_sample :
    let path := "conf/..//etc/./a.toml"
    let base := "/srv/./"
    Path.isAbsolute base = true ∧ sampleFiles.directoryAt base = .ok sampleFiles.here ∧
    ¬Path.isAbsolute path = true ∧
    ∃ s s', load sampleEnvironment sampleFiles path = .ok s ∧
      load sampleEnvironment sampleFiles (Path.join base path) = .ok s' ∧ SeenFrom base s s' := by
  intro path base
  have hbase : Path.isAbsolute base = true := Path.isAbsolute_iff.mpr (by decide)
  have hpath : ¬Path.isAbsolute path = true := mt Path.isAbsolute_iff.mp (by decide)
  have hlinks : sampleFiles.descend Files.maxLinks [] (Files.segmentsOf base) =
      some (Files.maxLinks, sampleFiles.here) := by cbv
  have hhere : sampleFiles.directoryAt base = .ok sampleFiles.here := by
    refine Files.directoryAt_eq_ok_iff.mpr ⟨⟨by cbv, by decide, by decide⟩, Files.maxLinks, ?_⟩
    rwa [if_pos hbase]
  obtain ⟨s, hload⟩ : ∃ s, load sampleEnvironment sampleFiles path = .ok s :=
    exists_load_sample walk_sample
  have hjoin : Path.join base path = "/srv/./conf/..//etc/./a.toml" := by
    rw [Path.join, if_neg hpath]
    cbv
  refine ⟨hbase, hhere, hpath, s, ?_⟩
  rcases load_join hbase hhere hpath hload with
    ⟨s', hjoined, hseen⟩ | ⟨hlong, -⟩ | ⟨⟨left, hless, hdescend, -⟩, -⟩
  · exact ⟨s', hload, hjoined, hseen⟩
  · rw [hjoin] at hlong
    exact absurd hlong (by decide)
  · rw [hlinks] at hdescend
    cases hdescend
    exact absurd hless (Nat.lt_irrefl _)

/-- The path of the file with so many more slashes than it needs. -/
def stretched (n : Nat) : String := "conf/" ++ String.ofList (List.replicate n '/') ++ "a.toml"

theorem toList_stretched (n : Nat) : (stretched n).toList =
    ['c', 'o', 'n', 'f'] ++ '/' :: (List.replicate n '/' ++ ['a', '.', 't', 'o', 'm', 'l']) := by
  simp [stretched, String.toList_append]

theorem utf8ByteSize_stretched (n : Nat) : (stretched n).utf8ByteSize = n + 11 := by
  have hslashes : (String.ofList (List.replicate n '/')).utf8ByteSize = n := by
    induction n with
    | zero => rfl
    | succ n ih =>
      rw [List.replicate_succ', String.ofList_append, String.utf8ByteSize_append, ih]
      rfl
  have hends : "conf/".utf8ByteSize = 5 ∧ "a.toml".utf8ByteSize = 6 := ⟨rfl, rfl⟩
  rw [stretched, String.utf8ByteSize_append, String.utf8ByteSize_append, hslashes, hends.1, hends.2]
  omega

theorem not_isAbsolute_stretched (n : Nat) : ¬Path.isAbsolute (stretched n) = true := by
  rw [Path.isAbsolute_iff, toList_stretched]
  nofun

theorem segmentsOf_stretched (n : Nat) :
    Files.segmentsOf (stretched n) = ["conf"] ++ List.replicate n "" ++ ["a.toml"] := by
  have hslashes : ∀ rest, Path.segments (List.replicate n '/' ++ rest) =
      List.replicate n [] ++ Path.segments rest := by
    intro rest
    induction n with
    | zero => rfl
    | succ n ih =>
      rw [List.replicate_succ, List.cons_append, Path.segments, ih]
      rfl
  rw [Files.segmentsOf, toList_stretched, Path.segments_append, hslashes, List.map_append,
    List.map_append, List.map_replicate, List.append_assoc]
  rfl

theorem contains_stretched (n : Nat) : (stretched n).contains '\x00' = false := by
  rw [String.contains_char_eq, toList_stretched]
  simp

theorem walk_stretched {n : Nat} (h : n + 11 < Files.maxPathSize) :
    sampleFiles.walk true (stretched n) =
      .ok (.entry ["srv", "conf", "a.toml"] (.file sampleText.toUTF8 false)) := by
  have hsize := utf8ByteSize_stretched n
  have hidle : (["conf"] ++ List.replicate n "").filter Files.isMove = ["conf"].filter Files.isMove := by
    rw [List.filter_append, List.filter_replicate]
    rfl
  have hdescend : sampleFiles.descend Files.maxLinks sampleFiles.here
      (["conf"] ++ List.replicate n "") = some (Files.maxLinks, ["srv", "conf"]) := by
    rw [Files.descend_congr hidle]
    cbv
  refine Files.walk_eq_ok_iff.mpr ⟨⟨contains_stretched n, ?_, hsize ▸ h⟩, ?_⟩
  · rintro hempty
    rw [hempty] at hsize
    cases hsize
  · rw [if_neg (not_isAbsolute_stretched n), segmentsOf_stretched, Files.walkFrom_append _ hdescend]
    unfold sampleFiles
    generalize sampleText.toUTF8 = content
    cbv

/-- **A path can be followed that is too long once it is joined.** -/
theorem load_join_tooLong :
    let path := stretched 4084
    Path.isAbsolute "/srv" = true ∧ sampleFiles.directoryAt "/srv" = .ok sampleFiles.here ∧
    ¬Path.isAbsolute path = true ∧
    (∃ s, load sampleEnvironment sampleFiles path = .ok s) ∧
    load sampleEnvironment sampleFiles (Path.join "/srv" path) =
      .error (.inaccessible (Path.join "/srv" path) .nameTooLong) := by
  intro path
  have hbase : Path.isAbsolute "/srv" = true := Path.isAbsolute_iff.mpr (by decide)
  have hpath : ¬Path.isAbsolute path = true := not_isAbsolute_stretched 4084
  have hlinks : sampleFiles.descend Files.maxLinks [] (Files.segmentsOf "/srv") =
      some (Files.maxLinks, sampleFiles.here) := by cbv
  have hhere : sampleFiles.directoryAt "/srv" = .ok sampleFiles.here := by
    refine Files.directoryAt_eq_ok_iff.mpr ⟨⟨by cbv, by decide, by decide⟩, Files.maxLinks, ?_⟩
    rwa [if_pos hbase]
  have hwalk := walk_stretched (n := 4084) (by decide)
  have hsize : Files.maxPathSize ≤ (Path.join "/srv" path).utf8ByteSize := by
    have hjoin : Path.join "/srv" path = "/srv" ++ "/" ++ path := by
      rw [Path.join, if_neg hpath]
      exact if_neg (Bool.eq_false_iff.mp (by cbv))
    rw [hjoin, String.utf8ByteSize_append, utf8ByteSize_stretched]
    decide
  refine ⟨hbase, hhere, hpath, exists_load_sample hwalk, ?_⟩
  have hnul : (Path.join "/srv" path).contains '\x00' = false :=
    Files.contains_join (by decide) (by cbv) (contains_stretched 4084)
  exact load_of_readText_error (Files.readText_of_walk_error (Files.walk_of_tooLong hnul hsize))

end CommitReports.Settings
