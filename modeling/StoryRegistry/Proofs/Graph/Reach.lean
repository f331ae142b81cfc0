import Mathlib.Order.Bounds.Defs
import StoryRegistry.Proofs.Graph.Failures

/-!
# The graph of a project

Where the files that imports may refer to can be tested for, building a graph lists the least set of
files that holds the given ones and each source file to which an internal dependency of a listed one
leads. Files are listed under normal paths, and their dependencies are resolved to normal paths, but
for the index files right below two slashes, which get a third one.

* The paths of the given files are texts that a file can be looked for under: they have a UTF-8 form
  and hold no NUL. The read of any other path fails with an error that is not noted.
* A file to which an internal dependency leads is there, so that reading it fails only if its bytes
  are no text.
-/

set_option autoImplicit false

namespace StoryRegistry.DependencyGraph

variable {settings : Settings} {following : Bool} {s : Session} {paths : List String} {path : String}

/-- The path is absolute, and a file can be looked for under it. -/
structure IsUsable (path : String) : Prop where
  absolute : (Path.ofString path).isAbsolute = true
  writable : Text.isWritable path = true
  noNull : '\x00' ∉ path.toList

/-- Reading fails as noted unless no file can be looked for under the path. -/
theorem isUnreadable_of_readText {t : FileTree} {p : Path} {cause : FileError}
    (h : t.readText p = .error cause) (hwritable : Text.isWritable p.toText = true)
    (hnull : '\x00' ∉ p.toText.toList) : cause.isUnreadable = true := by
  unfold FileTree.readText FileTree.file at h
  cases hspot : t.find p with
  | error e =>
    have hfault := FileTree.isFault_of_find hwritable hnull hspot
    rw [hspot] at h
    cases h
    cases cause <;> first | rfl | cases hfault
  | ok spot =>
    rw [hspot] at h
    cases spot with
    | folder place => cases h; rfl
    | free place => cases h; rfl
    | file place content =>
      dsimp only [bind, Except.bind] at h
      split at h <;> cases h
      rfl

/-- The normal form of a usable path is the text of a normal path, and is usable. -/
theorem exists_isNormal_of_isUsable (h : IsUsable path) :
    ∃ p : Path, p.IsNormal ∧ Path.normalize path = p.toText ∧ p.isAbsolute = true ∧
      Text.isWritable p.toText = true ∧ '\x00' ∉ p.toText.toList := by
  have hslash := Path.isAbsolute_ofString.1 h.absolute
  have hne : path ≠ "" := by
    rintro rfl
    simp at hslash
  obtain ⟨p, hp, htext, habsolute⟩ := Path.exists_isNormal hne
  refine ⟨p, hp, htext, habsolute hslash, ?_, ?_⟩
  · rw [← htext, Text.isWritable, List.all_eq_true]
    intro c hc
    rcases Path.mem_normalize hc with rfl | rfl | hc
    · decide
    · decide
    · exact List.all_eq_true.1 h.writable c hc
  · rw [← htext]
    intro hc
    rcases Path.mem_normalize hc with heq | heq | hc
    · exact absurd heq (by decide)
    · exact absurd heq (by decide)
    · exact h.noNull hc

theorem IsUsable.normalize (h : IsUsable path) : IsUsable (Path.normalize path) := by
  obtain ⟨p, hp, htext, habsolute, hwritable, hnull⟩ := exists_isNormal_of_isUsable h
  rw [htext]
  exact ⟨by rw [hp.ofString_toText, habsolute], hwritable, hnull⟩

/-- Reading a file that is reached from usable paths fails only as is noted. -/
theorem isUnreadable_of_reached (hpaths : ∀ path ∈ paths, IsUsable path)
    (h : Reached settings following s (paths.map Path.normalize) path) {cause : FileError}
    (hread : s.tree.readText (Path.ofString path) = .error cause) : cause.isUnreadable = true := by
  cases h with
  | start hmem =>
    obtain ⟨given, hgiven, rfl⟩ := List.mem_map.1 hmem
    obtain ⟨p, hp, htext, -, hwritable, hnull⟩ := exists_isNormal_of_isUsable (hpaths given hgiven)
    rw [htext, hp.ofString_toText] at hread
    exact isUnreadable_of_readText hread hwritable hnull
  | follow _ hleads =>
    obtain ⟨-, found, -, -, -, hfile⟩ := hleads
    exact Import.isUnreadable_of_isFile hfile hread

/-- The search from usable paths fails only where a place is at fault: a file that cannot be read does
not end it, and looking up what a specifier refers to fails at places. -/
theorem ofPlace_of_build (hpaths : ∀ path ∈ paths, IsUsable path) {e : Failure}
    (h : (ends (build settings following paths) s).1 = .error e) : Import.OfPlace e := by
  rcases ends_build settings following s paths with
    ⟨all, -, -, -, hend⟩ | ⟨path, e', hreached, ⟨hescapes, hkind⟩, hend⟩
  · rw [hend] at h
    cases h
  · rw [hend] at h
    cases h
    cases hread : s.tree.readText (Path.ofString path) with
    | error cause =>
      rw [analysis_of_error hread, if_pos (isUnreadable_of_reached hpaths hreached hread)] at hescapes
      cases hescapes
      cases hkind
    | ok source =>
      rw [analysis_of_text hread] at hescapes
      exact (FailsWith.mapM (Import.failsWith_dependency? path)).bind (fun _ => .pure _) s e hescapes

/-- The path is in normal form, or one of the index files right below two slashes. -/
def IsNearlyNormal (path : String) : Prop :=
  Path.normalize path = path ∨ path ∈ Import.rootIndexes

/-- From absolute paths one comes to absolute paths in normal form, but for the exceptions. -/
theorem isNearlyNormal_of_reached (hpaths : ∀ path ∈ paths, IsUsable path)
    (h : Reached settings following s (paths.map Path.normalize) path) :
    (Path.ofString path).isAbsolute = true ∧ IsNearlyNormal path := by
  induction h with
  | start hmem =>
    obtain ⟨given, hgiven, rfl⟩ := List.mem_map.1 hmem
    obtain ⟨p, hp, htext, habsolute, -⟩ := exists_isNormal_of_isUsable (hpaths given hgiven)
    refine ⟨?_, Or.inl (Path.normalize_normalize given)⟩
    rw [htext, hp.ofString_toText]
    exact habsolute
  | follow _ hleads ih =>
    obtain ⟨-, found, hfound, ⟨d, hd, hkind, hpath, -⟩, -⟩ := hleads
    obtain ⟨specifier, target, hresolve, htarget⟩ := exists_resolve hfound hd hkind
    rw [Option.some.inj (hpath.symm.trans htarget)]
    exact Import.normalize_resolve ih.1 hresolve

/-- What is reached is the least set that holds the starts and is closed under following. -/
theorem isLeast_reached (settings : Settings) (following : Bool) (s : Session) (paths : List String) :
    IsLeast {keys : Set String | (∀ path ∈ paths, Path.normalize path ∈ keys) ∧
        ∀ key ∈ keys, ∀ next, Leads settings following s key next → next ∈ keys}
      {key | Reached settings following s (paths.map Path.normalize) key} := by
  constructor
  · exact ⟨fun path hpath => .start (List.mem_map_of_mem hpath),
      fun key hkey next hleads => hkey.follow hleads⟩
  · rintro keys ⟨hgiven, hclosed⟩ key hkey
    induction hkey with
    | start hmem =>
      obtain ⟨path, hpath, rfl⟩ := List.mem_map.1 hmem
      exact hgiven path hpath
    | follow _ hleads ih => exact hclosed _ ih _ hleads

/-! ## Graphs of files that can be listed -/

section Listable

/-- A file that cannot be read but can be listed is noted. -/
theorem analysis_of_unread (h : Listable settings s path) {cause : FileError}
    (hread : s.tree.readText (Path.ofString path) = .error cause) :
    analysis settings s path = .error (.unreadableImports path cause) := by
  unfold Listable at h
  rw [hread] at h
  rw [analysis_of_error hread, if_pos h]

variable {keys : List String} (hlistable : ∀ key ∈ keys, Listable settings s key)
include hlistable

/-- The entry of a file is what reading it comes to. -/
theorem get?_of_listable {key : String} (hkey : key ∈ keys) :
    (∀ source, s.tree.readText (Path.ofString key) = .ok source →
        ∃ found, analysis settings s key = .ok found ∧
          Table.get? key (graphOf settings s keys).graph = some found) ∧
      ∀ cause, s.tree.readText (Path.ofString key) = .error cause →
        Table.get? key (graphOf settings s keys).graph = some [] := by
  rw [get?_graphOf hkey]
  constructor
  · intro source hsource
    obtain ⟨found, hfound⟩ := exists_analysis (hlistable key hkey) hsource
    exact ⟨found, hfound, by rw [hfound]; rfl⟩
  · intro cause hcause
    rw [analysis_of_unread (hlistable key hkey) hcause]
    rfl

/-- The files that cannot be read are noted, in the order in which they are listed. -/
theorem failures_of_listable : (graphOf settings s keys).failures = keys.filterMap fun key =>
    match s.tree.readText (Path.ofString key) with
    | .ok _ => none
    | .error cause => some (key, .unreadableImports key cause) := by
  rw [List.filterMap_eq_flatMap_toList]
  refine List.flatMap_congr fun key hkey => ?_
  cases hread : s.tree.readText (Path.ofString key) with
  | ok source =>
    obtain ⟨found, hfound⟩ := exists_analysis (hlistable key hkey) hread
    rw [hfound]
    rfl
  | error cause =>
    rw [analysis_of_unread (hlistable key hkey) hread]
    rfl

end Listable

/-- The dependencies that a graph has for a file were found by analysing the file. -/
theorem exists_analysis_of_get? {keys : List String} {key : String} {found : List Dependency}
    {d : Dependency} (hget : Table.get? key (graphOf settings s keys).graph = some found)
    (hd : d ∈ found) : key ∈ keys ∧ analysis settings s key = .ok found := by
  have hkey : key ∈ keys := by
    by_contra hnot
    rw [Table.get?_eq_none_iff.2 (by rwa [names_graphOf])] at hget
    cases hget
  rw [get?_graphOf hkey] at hget
  cases houtcome : analysis settings s key with
  | error e =>
    rw [houtcome] at hget
    cases hget
    exact absurd hd List.not_mem_nil
  | ok found =>
    rw [houtcome] at hget
    cases hget
    exact ⟨hkey, rfl⟩

/-- Where every test along the way succeeds, building a graph of usable paths succeeds. The graph lists
each file once, and lists the least set that holds the normal forms of the paths and is closed under
following internal dependencies; a file that can be read has its dependencies, a file that cannot be
read has none and is noted, and no other file is noted. Listed paths and the paths of internal
dependencies are in normal form, but for the index files right below two slashes. -/
theorem build_least_closed (settings : Settings) (following : Bool) (s : Session)
    (paths : List String) (hpaths : ∀ path ∈ paths, IsUsable path)
    (htests : ∀ path, Reached settings following s (paths.map Path.normalize) path →
      ∀ source, s.tree.readText (Path.ofString path) = .ok source →
        ∀ specifier ∈ (Script.Module.ofFile path source).imports,
          ∀ p ∈ Import.tested settings path specifier, ∃ there, s.tree.isFile p = .ok there) :
    ∃ b, (ends (build settings following paths) s).1 = .ok b ∧
      (Table.names b.graph).Nodup ∧
      IsLeast {keys : Set String | (∀ path ∈ paths, Path.normalize path ∈ keys) ∧
          ∀ key ∈ keys, ∀ next, Leads settings following s key next → next ∈ keys}
        {key | key ∈ Table.names b.graph} ∧
      (∀ key ∈ Table.names b.graph,
        (∀ source, s.tree.readText (Path.ofString key) = .ok source →
          ∃ found, analysis settings s key = .ok found ∧ Table.get? key b.graph = some found) ∧
        ∀ cause, s.tree.readText (Path.ofString key) = .error cause →
          Table.get? key b.graph = some []) ∧
      (b.failures = (Table.names b.graph).filterMap fun key =>
        match s.tree.readText (Path.ofString key) with
        | .ok _ => none
        | .error cause => some (key, .unreadableImports key cause)) ∧
      (∀ key ∈ Table.names b.graph, IsNearlyNormal key) ∧
      ∀ key found d path, Table.get? key b.graph = some found → d ∈ found → d.kind = .internal →
        d.path = some path → IsNearlyNormal path := by
  have hlistable : ∀ path, Reached settings following s (paths.map Path.normalize) path →
      Listable settings s path := by
    intro path hpath
    cases hread : s.tree.readText (Path.ofString path) with
    | error cause =>
      unfold Listable
      rw [hread]
      exact isUnreadable_of_reached hpaths hpath hread
    | ok source =>
      refine (listable_of_text hread).2 fun specifier hspecifier => ?_
      exact Import.exists_dependency? (htests path hpath source hread specifier hspecifier)
  obtain ⟨b, hb⟩ := (exists_build_iff settings following s paths).2 hlistable
  obtain ⟨all, hdistinct, rfl, hreached⟩ := exists_graphOf hb
  have hall : ∀ key ∈ all, Listable settings s key :=
    fun key hkey => hlistable key ((hreached key).1 hkey)
  have hnormal : ∀ key ∈ all, (Path.ofString key).isAbsolute = true ∧ IsNearlyNormal key :=
    fun key hkey => isNearlyNormal_of_reached hpaths ((hreached key).1 hkey)
  refine ⟨graphOf settings s all, hb, ?_, ?_, ?_, ?_, ?_, ?_⟩
  · rwa [names_graphOf]
  · simp only [names_graphOf, hreached]
    exact isLeast_reached settings following s paths
  · intro key hkey
    rw [names_graphOf] at hkey
    exact get?_of_listable hall hkey
  · rw [names_graphOf]
    exact failures_of_listable hall
  · intro key hkey
    rw [names_graphOf] at hkey
    exact (hnormal key hkey).2
  · intro key found d path hget hd hkind hpath
    obtain ⟨hkey, hfound⟩ := exists_analysis_of_get? hget hd
    obtain ⟨specifier, target, hresolve, htarget⟩ := exists_resolve hfound hd hkind
    rw [Option.some.inj (hpath.symm.trans htarget)]
    exact (Import.normalize_resolve (hnormal key hkey).1 hresolve).2

/-! ## Two files that import each other -/

namespace MutualImport

/-- A project with two files, each of which imports the other. -/
def session : Session :=
  { tree := .small
      [("a.ts", .ofSource "import \"./b\";\n" 1), ("b.ts", .ofSource "import \"./a\";\n" 1)] }

/-- The dependency on a file. -/
def onFile (specifier path : String) : Dependency :=
  { specifier := specifier, kind := .internal, path := some path }

theorem analysis_first :
    analysis (.small false) session "/p/a.ts" = .ok [onFile "./b" "/p/b.ts"] :=
  eq_ok_of_any (by decide +kernel)

theorem analysis_second :
    analysis (.small false) session "/p/b.ts" = .ok [onFile "./a" "/p/a.ts"] :=
  eq_ok_of_any (by decide +kernel)

theorem mem_of_leads {path next : String} (hpath : path ∈ ["/p/a.ts", "/p/b.ts"])
    (h : Leads (.small false) true session path next) : next ∈ ["/p/a.ts", "/p/b.ts"] := by
  obtain ⟨-, found, hfound, ⟨d, hd, -, htarget, -⟩, -⟩ := h
  rcases List.mem_cons.1 hpath with rfl | hpath
  · rw [analysis_first] at hfound
    cases hfound
    rw [List.mem_singleton.1 hd] at htarget
    cases htarget
    exact List.mem_cons_of_mem _ List.mem_cons_self
  · rw [List.mem_singleton.1 hpath, analysis_second] at hfound
    cases hfound
    rw [List.mem_singleton.1 hd] at htarget
    cases htarget
    exact List.mem_cons_self

/-- From the first file one comes to no third one. -/
theorem mem_of_reached {path : String}
    (h : Reached (.small false) true session (["/p/a.ts"].map Path.normalize) path) :
    path ∈ ["/p/a.ts", "/p/b.ts"] := by
  have hstart : ["/p/a.ts"].map Path.normalize = ["/p/a.ts"] := by decide +kernel
  rw [hstart] at h
  induction h with
  | start hmem => exact List.mem_cons.2 (Or.inl (List.mem_singleton.1 hmem))
  | follow _ hleads ih => exact mem_of_leads ih hleads

/-- Every file that the imports may refer to can be tested for. -/
theorem tests {path source : String} (hpath : path ∈ ["/p/a.ts", "/p/b.ts"])
    (hread : session.tree.readText (Path.ofString path) = .ok source) :
    ∀ specifier ∈ (Script.Module.ofFile path source).imports,
      ∀ p ∈ Import.tested (.small false) path specifier,
        ∃ there, session.tree.isFile p = .ok there := by
  have hall : ∀ path ∈ ["/p/a.ts", "/p/b.ts"],
      ((session.tree.readText (Path.ofString path)).toOption.all fun source =>
        (Script.Module.ofFile path source).imports.all fun specifier =>
          (Import.tested (.small false) path specifier).all fun p =>
            (session.tree.isFile p).toOption.isSome) = true := by decide +kernel
  intro specifier hspecifier p hp
  have hone := hall path hpath
  rw [hread] at hone
  have htest := List.all_eq_true.1 (List.all_eq_true.1 hone specifier hspecifier) p hp
  cases hthere : session.tree.isFile p with
  | ok there => exact ⟨there, rfl⟩
  | error e =>
    rw [hthere] at htest
    cases htest

end MutualImport

open MutualImport in
/-- Following the import of one file lists the other one too, each with the dependency on the other.
-/
theorem graph_of_mutual_import :
    ∃ b, (ends (build (.small false) true ["/p/a.ts"]) session).1 = .ok b ∧
      (Table.names b.graph).Nodup ∧
      (∀ key ∈ Table.names b.graph, key ∈ ["/p/a.ts", "/p/b.ts"]) ∧
      Table.get? "/p/a.ts" b.graph = some [onFile "./b" "/p/b.ts"] ∧
      Table.get? "/p/b.ts" b.graph = some [onFile "./a" "/p/a.ts"] := by
  have husable : ∀ path ∈ ["/p/a.ts"], IsUsable path := by
    intro path hpath
    rw [List.mem_singleton.1 hpath]
    exact ⟨by decide +kernel, by decide +kernel, by decide +kernel⟩
  obtain ⟨b, hb, hdistinct, ⟨⟨hgiven, hclosed⟩, hleast⟩, hentries, -⟩ :=
    build_least_closed (.small false) true session ["/p/a.ts"] husable
      fun path hpath source hread => tests (mem_of_reached hpath) hread
  have hnormal : Path.normalize "/p/a.ts" = "/p/a.ts" := by decide +kernel
  have hfirst : "/p/a.ts" ∈ Table.names b.graph := by
    have hmem := hgiven "/p/a.ts" List.mem_cons_self
    rwa [hnormal] at hmem
  have hsecond : "/p/b.ts" ∈ Table.names b.graph :=
    hclosed "/p/a.ts" hfirst "/p/b.ts" ⟨rfl, _, analysis_first,
      ⟨_, List.mem_cons_self, rfl, rfl, by decide⟩, by decide +kernel, by decide +kernel⟩
  have hread : ∀ key ∈ ["/p/a.ts", "/p/b.ts"],
      (session.tree.readText (Path.ofString key)).toOption.isSome = true := by decide +kernel
  have hentry {key : String} (hkey : key ∈ Table.names b.graph)
      (hone : key ∈ ["/p/a.ts", "/p/b.ts"]) {found : List Dependency}
      (hfound : analysis (.small false) session key = .ok found) :
      Table.get? key b.graph = some found := by
    have hsource := hread key hone
    cases htext : session.tree.readText (Path.ofString key) with
    | error cause =>
      rw [htext] at hsource
      cases hsource
    | ok source =>
      obtain ⟨other, hother, hget⟩ := (hentries key hkey).1 source htext
      rw [hfound] at hother
      cases hother
      exact hget
  refine ⟨b, hb, hdistinct, fun key hkey => ?_, hentry hfirst (by simp) analysis_first,
    hentry hsecond (by simp) analysis_second⟩
  refine @hleast {key | key ∈ ["/p/a.ts", "/p/b.ts"]}
    ⟨fun path hpath => ?_, fun key hkey next hleads => mem_of_leads hkey hleads⟩ key hkey
  rw [List.mem_singleton.1 hpath, hnormal]
  exact List.mem_cons_self

/-- The exceptions occur: from an index file right below the root one comes to it under two slashes, and
from there under three. -/
theorem not_normal_of_root_index :
    let tree : FileTree := { FileTree.small [] with
      files := [(["index.ts"], .ofSource "import \".\";\n" 1)] }
    ∃ b, (ends (build (.small false) true ["/index.ts"]) { tree := tree }).1 = .ok b ∧
      Table.names b.graph = ["/index.ts", "//index.ts", "///index.ts"] ∧
      Path.normalize "///index.ts" = "/index.ts" := by
  intro tree
  have hbuilt : (ends (build (.small false) true ["/index.ts"]) { tree := tree }).1.toOption.any
      (fun b => Table.names b.graph == ["/index.ts", "//index.ts", "///index.ts"]) = true := by
    decide +kernel
  obtain ⟨b, hb, hnames⟩ := exists_ok_of_any hbuilt
  exact ⟨b, hb, beq_iff_eq.1 hnames, by decide +kernel⟩

/-- A path that holds a NUL is given, and there is no graph at all: reading it fails in a way that is not
noted. -/
theorem not_build_of_null :
    ¬∃ b, (ends (build (.small false) false ["/p/a\x00.ts"]) MutualImport.session).1 = .ok b := by
  have hnone : (ends (build (.small false) false ["/p/a\x00.ts"])
      MutualImport.session).1.toOption.isSome = false := by decide +kernel
  rintro ⟨b, hb⟩
  rw [hb] at hnone
  cases hnone

end StoryRegistry.DependencyGraph
