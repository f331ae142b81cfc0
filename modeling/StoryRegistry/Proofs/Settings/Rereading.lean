import StoryRegistry.Proofs.Path.Relative
import StoryRegistry.Proofs.Registry.Documents
import StoryRegistry.Proofs.Step
import StoryRegistry.Proofs.Yaml.Data
import StoryRegistry.Settings.Writing

/-!
# Reading written settings

Settings that are read have story patterns, a name, type rules that pass their own checks, and one
name for each dependency that is renamed. From the entries of such settings the same choices are read,
section by section; only a path may be spelled in another way. The way from the root to it is the
same, and so the settings that are read have the same entries.
-/

set_option autoImplicit false

namespace StoryRegistry

open Yaml

/-- A rule that a list of rules can give. -/
structure TypeRule.IsSound (r : TypeRule) : Prop where
  filled : r.pattern ≠ ""
  measured : ∀ name ∈ r.condition, (Measure.ofText? name).isSome = true

namespace Settings

/-- Settings that a text can give. -/
structure IsSound (settings : Settings) : Prop where
  patterns : settings.storiesPatterns ≠ []
  named : settings.registryName ≠ ""
  rules : ∀ r ∈ settings.typeRules, r.IsSound
  renamedOnce : (Table.names settings.renames).Nodup
  renamed : ∀ e ∈ settings.renames, e.2 ≠ ""

/-! ## What is read is sound -/

variable {t : Tree} {fields : List (Data × Data)} {settings settings' : Settings}

theorem isSound_ofRoot (root : Path) : (ofRoot root).IsSound where
  patterns := List.cons_ne_nil _ _
  named := (by decide : "my-components" ≠ "")
  rules := by
    intro r hr
    simp only [ofRoot, defaultTypeRules, List.mem_cons, List.not_mem_nil, or_false] at hr
    rcases hr with rfl | rfl | rfl <;> exact ⟨(by decide), nofun⟩
  renamedOnce := List.nodup_nil
  renamed := nofun

/-- A text that is read where one has to be filled is filled. -/
theorem ne_of_asFilledText? {d : Data} {s : String} (h : asFilledText? d = .ok (some s)) : s ≠ "" := by
  unfold asFilledText? at h
  cases htext : asText? d with
  | error e =>
    rw [htext] at h
    cases h
  | ok found =>
    rw [htext] at h
    have hfound : found.filter (!·.isEmpty) = some s := Except.ok.inj h
    simpa using (Option.filter_eq_some_iff.1 hfound).2

theorem isSound_withInput (h : withInput t fields settings = .ok settings')
    (hsound : settings.IsSound) : settings'.IsSound ∧ settings'.root = settings.root := by
  unfold withInput at h
  obtain ⟨storybook, -, h⟩ := bind_eq_ok_iff.1 h
  obtain ⟨components, -, h⟩ := bind_eq_ok_iff.1 h
  obtain ⟨tsconfig, -, h⟩ := bind_eq_ok_iff.1 h
  obtain ⟨patterns, -, h⟩ := bind_eq_ok_iff.1 h
  cases h
  refine ⟨⟨?_, hsound.named, hsound.rules, hsound.renamedOnce, hsound.renamed⟩, rfl⟩
  dsimp only
  split
  · exact hsound.patterns
  · rename_i hpatterns
    simpa using hpatterns

theorem isSound_withOutput (h : withOutput t fields settings = .ok settings')
    (hsound : settings.IsSound) : settings'.IsSound ∧ settings'.root = settings.root := by
  unfold withOutput at h
  obtain ⟨path, -, h⟩ := bind_eq_ok_iff.1 h
  obtain ⟨name, hname, h⟩ := bind_eq_ok_iff.1 h
  obtain ⟨homepage, -, h⟩ := bind_eq_ok_iff.1 h
  cases h
  refine ⟨⟨hsound.patterns, ?_, hsound.rules, hsound.renamedOnce, hsound.renamed⟩, rfl⟩
  cases name with
  | none => exact hsound.named
  | some text => exact ne_of_asFilledText? hname

theorem isSound_ruleOf {position : Nat} {d : Data} {r : TypeRule} (h : ruleOf t position d = .ok r) :
    r.IsSound := by
  unfold ruleOf at h
  split at h
  · obtain ⟨pattern, hpattern, h⟩ := bind_eq_ok_iff.1 h
    cases pattern with
    | none => cases h
    | some pattern =>
      obtain ⟨condition, -, h⟩ := bind_eq_ok_iff.1 h
      dsimp only at h
      split at h
      · obtain ⟨_, hthrow, -⟩ := bind_eq_ok_iff.1 h
        cases hthrow
      · rename_i hmeasured
        obtain ⟨type, -, h⟩ := bind_eq_ok_iff.1 h
        obtain ⟨threshold, -, h⟩ := bind_eq_ok_iff.1 h
        cases h
        refine ⟨ne_of_asFilledText? hpattern, fun name hname => ?_⟩
        dsimp only at hname
        rw [Option.mem_def.1 hname] at hmeasured
        simpa [Option.isSome_iff_ne_none] using hmeasured
  · cases h

theorem isSound_rulesOf {d : Data} {rules : List TypeRule} (h : rulesOf t d = .ok rules) :
    ∀ r ∈ rules, r.IsSound := by
  unfold rulesOf at h
  split at h
  · cases h
    exact List.forall_mem_nil _
  · intro r hr
    obtain ⟨⟨item, position⟩, -, hrule⟩ := exists_of_forall₂ (mapM_eq_ok_iff.1 h) hr
    exact isSound_ruleOf hrule
  · cases h

/-- Renames are set one after another, and each of them has a name. -/
theorem isSound_renamesOf {known renames : Table String} (h : renamesOf t fields known = .ok renames)
    (honce : (Table.names known).Nodup) (hfilled : ∀ e ∈ known, e.2 ≠ "") :
    (Table.names renames).Nodup ∧ ∀ e ∈ renames, e.2 ≠ "" := by
  induction fields generalizing known with
  | nil =>
    cases h
    exact ⟨honce, hfilled⟩
  | cons field rest ih =>
    obtain ⟨key, target⟩ := field
    unfold renamesOf at h
    obtain ⟨target, htarget, h⟩ := bind_eq_ok_iff.1 h
    cases target with
    | none => exact ih h honce hfilled
    | some name =>
      obtain ⟨source, -, h⟩ := bind_eq_ok_iff.1 h
      refine ih h (Table.nodup_names_set honce source name) fun e he => ?_
      rcases Table.mem_of_mem_set he with he | rfl
      · exact hfilled e he
      · exact ne_of_asFilledText? htarget

theorem isSound_withMapping (h : withMapping t fields settings = .ok settings')
    (hsound : settings.IsSound) : settings'.IsSound ∧ settings'.root = settings.root := by
  unfold withMapping at h
  obtain ⟨rules, hrules, h⟩ := bind_eq_ok_iff.1 h
  obtain ⟨renames, hrenames, h⟩ := bind_eq_ok_iff.1 h
  obtain ⟨excludes, -, h⟩ := bind_eq_ok_iff.1 h
  cases h
  obtain ⟨honce, hfilled⟩ := isSound_renamesOf hrenames hsound.renamedOnce hsound.renamed
  refine ⟨⟨hsound.patterns, hsound.named, ?_, honce, hfilled⟩, rfl⟩
  unfold readOr at hrules
  split at hrules
  · exact isSound_rulesOf hrules
  · cases hrules
    exact hsound.rules

/-- Settings that are read are sound, and have the root of the file that they are read from. -/
theorem isSound_ofEntries {root : Path} (h : ofEntries t root fields = .ok settings) :
    settings.IsSound ∧ settings.root = root := by
  unfold ofEntries at h
  obtain ⟨input, hinput, h⟩ := bind_eq_ok_iff.1 h
  obtain ⟨output, houtput, h⟩ := bind_eq_ok_iff.1 h
  obtain ⟨mapping, hmapping, h⟩ := bind_eq_ok_iff.1 h
  cases h
  obtain ⟨hsound, hroot⟩ := isSound_withInput hinput (isSound_ofRoot root)
  obtain ⟨hsound, hroot'⟩ := isSound_withOutput houtput hsound
  obtain ⟨hsound, hroot''⟩ := isSound_withMapping hmapping hsound
  refine ⟨⟨hsound.patterns, hsound.named, hsound.rules, hsound.renamedOnce, hsound.renamed⟩, ?_⟩
  exact hroot''.trans (hroot'.trans hroot)

theorem isSound_ofText {root : Path} {file text : String} (h : ofText root file text = .ok settings) :
    settings.IsSound ∧ settings.root = root := by
  have hdefault (h : Except.ok (ofRoot root) = (Except.ok settings : Except Failure Settings)) :
      settings.IsSound ∧ settings.root = root := by
    cases h
    exact ⟨isSound_ofRoot root, rfl⟩
  unfold ofText at h
  split at h
  · exact hdefault h
  · split at h
    · cases h
    · split at h
      · exact hdefault h
      · exact isSound_ofEntries h
      · cases h

/-! ## What is read from written settings -/

theorem asFilledText?_text {s : String} (h : s ≠ "") : asFilledText? (.text s) = .ok (some s) := by
  have hfilled : (some s).filter (!·.isEmpty) = some s := by simp [Option.filter, h]
  exact congrArg Except.ok hfilled

theorem asTexts_ofTexts (v : Value) (texts : List String) :
    asTexts (.ofValue v) (.ofValue (.ofTexts texts)) = .ok texts := by
  have hitems : (Data.ofItems (texts.map .string)).mapM
      (fun item => itemText? (Tree.follow (.ofValue v) item)) = .ok (texts.map some) := by
    rw [Data.ofItems_eq_map, mapM_eq_ok_iff, List.map_map, List.forall₂_map_left_iff,
      List.forall₂_map_right_iff, List.forall₂_same]
    exact fun _ _ => rfl
  rw [Value.ofTexts, Data.ofValue, asTexts, hitems]
  simp [Except.map]

/-- The text in which a path is written is not empty. -/
theorem shownPath_ne (settings : Settings) (p : Path) : settings.shownPath p ≠ "" := by
  unfold shownPath
  dsimp only
  split
  · rename_i hdot
    intro hempty
    rw [hempty] at hdot
    exact absurd hdot (by decide)
  · intro hempty
    have htext := congrArg String.toList hempty
    rw [String.toList_append] at htext
    cases htext

theorem withInput_inputEntries (v : Value) {written : Settings} (hsound : written.IsSound) :
    withInput (.ofValue v) (Data.ofFields written.inputEntries) settings = .ok
      { settings with
        storybookPath := settings.root.child (written.shownPath written.storybookPath)
        componentsPath := settings.root.child (written.shownPath written.componentsPath)
        tsconfigPath := settings.root.child (written.shownPath written.tsconfigPath)
        storiesPatterns := written.storiesPatterns } := by
  have hpath (p : Path) := asFilledText?_text (shownPath_ne written p)
  have hpatterns := asTexts_ofTexts v written.storiesPatterns
  have hsome : written.storiesPatterns.isEmpty = false := by simpa using hsound.patterns
  have hstorybook : Value.entry "storybookPath" written.inputEntries =
      .string (written.shownPath written.storybookPath) := rfl
  have hcomponents : Value.entry "componentsPath" written.inputEntries =
      .string (written.shownPath written.componentsPath) := rfl
  have htsconfig : Value.entry "tsconfigPath" written.inputEntries =
      .string (written.shownPath written.tsconfigPath) := rfl
  have hstories : Value.entry "storiesPattern" written.inputEntries =
      .ofTexts written.storiesPatterns := rfl
  unfold withInput
  simp only [entry_ofFields, hstorybook, hcomponents, htsconfig, hstories, hpatterns, Data.ofValue,
    hpath, bind, Except.bind, pure, Except.pure, hsome]
  rfl

theorem withOutput_outputEntries (v : Value) {written : Settings} (hsound : written.IsSound) :
    withOutput (.ofValue v) (Data.ofFields written.outputEntries) settings = .ok
      { settings with
        registryPath := settings.root.child (written.shownPath written.registryPath)
        registryName := written.registryName
        homepage := written.homepage.filter (!·.isEmpty) <|> settings.homepage } := by
  have hentry (name : String) := entry_presentEntries name
    [("registryPath", some (.string (written.shownPath written.registryPath))),
     ("registryName", some (.string written.registryName)),
     ("homepage", (written.homepage.filter (!·.isEmpty)).map .string)] (by simp)
  have hpath := asFilledText?_text (shownPath_ne written written.registryPath)
  have hname := asFilledText?_text hsound.named
  have hhomepage : asFilledText? (.ofValue (Value.entry "homepage" written.outputEntries)) =
      .ok (written.homepage.filter (!·.isEmpty)) := by
    have hpart : Value.entry "homepage" written.outputEntries =
        ((written.homepage.filter (!·.isEmpty)).map Value.string).getD .null := hentry "homepage"
    rw [hpart]
    cases hfilter : written.homepage.filter (!·.isEmpty) with
    | none => rfl
    | some text =>
      have hfilled : text ≠ "" := by simpa using (Option.filter_eq_some_iff.1 hfilter).2
      exact asFilledText?_text hfilled
  have hregistry : Value.entry "registryPath" written.outputEntries =
      .string (written.shownPath written.registryPath) := hentry "registryPath"
  have htitle : Value.entry "registryName" written.outputEntries = .string written.registryName :=
    hentry "registryName"
  unfold withOutput
  simp only [entry_ofFields, hregistry, htitle, hhomepage, Data.ofValue, hpath, hname, bind,
    Except.bind, pure, Except.pure]
  rfl

/-- A written rule is read as it was. -/
theorem ruleOf_entries (v : Value) {r : TypeRule} (h : r.IsSound) (position : Nat) :
    ruleOf (.ofValue v) position (.ofValue (.map r.entries)) = .ok r := by
  have hentry (name : String) := entry_presentEntries name
    [("pattern", some (.string r.pattern)), ("type", some (.string r.type.text)),
     ("condition", r.condition.map .string), ("threshold", r.threshold.map .double)] (by simp)
  have hpattern : Value.entry "pattern" r.entries = .string r.pattern := hentry "pattern"
  have htype : Value.entry "type" r.entries = .string r.type.text := hentry "type"
  have hcondition : asText? (.ofValue (Value.entry "condition" r.entries)) = .ok r.condition := by
    have hpart : Value.entry "condition" r.entries = (r.condition.map Value.string).getD .null :=
      hentry "condition"
    rw [hpart]
    cases r.condition <;> rfl
  have hthreshold : asNumber? (.ofValue (Value.entry "threshold" r.entries)) = .ok r.threshold := by
    have hpart : Value.entry "threshold" r.entries = (r.threshold.map Value.double).getD .null :=
      hentry "threshold"
    rw [hpart]
    cases r.threshold <;> rfl
  have hmeasured : (r.condition.any fun name => (Measure.ofText? name).isNone) = false := by
    cases hname : r.condition with
    | none => rfl
    | some name => simp [Option.any, h.measured name hname]
  have htypeOf : typeOf (.text r.type.text) = .ok r.type := by cases r.type <;> rfl
  unfold ruleOf
  simp only [Data.ofValue, entry_ofFields, hpattern, htype, hcondition, hthreshold,
    asFilledText?_text h.filled, hmeasured, htypeOf, bind, Except.bind, pure, Except.pure]
  rfl

theorem rulesOf_entries (v : Value) {rules : List TypeRule} (h : ∀ r ∈ rules, r.IsSound) :
    rulesOf (.ofValue v) (.ofValue (.list (rules.map fun r => .map r.entries))) = .ok rules := by
  have hrules (position : Nat) : List.Forall₂
      (fun (item : Data × Nat) r =>
        ruleOf (.ofValue v) item.2 (Tree.follow (.ofValue v) item.1) = .ok r)
      ((rules.map fun r => Data.ofValue (.map r.entries)).zipIdx position) rules := by
    induction rules generalizing position with
    | nil => exact .nil
    | cons r rest ih =>
      obtain ⟨hfirst, hrest⟩ := List.forall_mem_cons.1 h
      rw [List.map_cons, List.zipIdx_cons]
      refine .cons ?_ (ih hrest (position + 1))
      rw [Tree.follow_ofValue]
      exact ruleOf_entries v hfirst position
  rw [Data.ofValue, Data.ofItems_eq_map, List.map_map, rulesOf, mapM_eq_ok_iff]
  exact hrules 0

/-- Written renames are read as they were, after those that are known. -/
theorem renamesOf_mapEntries (v : Value) {renames known : Table String}
    (honce : (Table.names (known ++ renames)).Nodup) (hfilled : ∀ e ∈ renames, e.2 ≠ "") :
    renamesOf (.ofValue v) (Data.ofFields (Table.mapEntries .string renames)) known =
      .ok (known ++ renames) := by
  induction renames generalizing known with
  | nil =>
    rw [List.append_nil]
    rfl
  | cons e rest ih =>
    obtain ⟨source, name⟩ := e
    obtain ⟨hname, hrest⟩ := List.forall_mem_cons.1 hfilled
    have hnew : source ∉ Table.names known := by
      intro hmem
      rw [Table.names, List.map_append, List.map_cons] at honce
      exact (List.nodup_append.1 honce).2.2 source hmem source List.mem_cons_self rfl
    have hset : Table.set source name known = known ++ [(source, name)] :=
      Table.set_of_not_mem hnew name
    have hmore := @ih (known ++ [(source, name)]) (by simpa using honce) hrest
    rw [List.append_assoc, List.singleton_append] at hmore
    have hfields : Data.ofFields (Table.mapEntries .string ((source, name) :: rest)) =
        (.text source, .text name) :: Data.ofFields (Table.mapEntries .string rest) := by
      simp [Table.mapEntries, Data.ofFields, Data.ofValue]
    have htext : asFilledText? (Tree.follow (.ofValue v) (.text name)) = .ok (some name) :=
      asFilledText?_text hname
    rw [hfields, renamesOf, htext, ← hmore, ← hset]
    rfl

theorem withMapping_mappingEntries (v : Value) {written : Settings} (hsound : written.IsSound)
    (hnone : settings.renames = []) :
    withMapping (.ofValue v) (Data.ofFields written.mappingEntries) settings = .ok
      { settings with
        typeRules := written.typeRules
        renames := written.renames
        excludePatterns := written.excludePatterns } := by
  have hrules : readOr (.ofValue v) "componentTypeRules" (rulesOf (.ofValue v)) settings.typeRules
      (Data.ofFields written.mappingEntries) = .ok written.typeRules := by
    have hdata : dataAt? (.ofValue v) "componentTypeRules" (Data.ofFields written.mappingEntries) =
        some (.ofValue (.list (written.typeRules.map fun r => .map r.entries))) :=
      dataAt?_ofFields v _ _
    rw [readOr, hdata]
    exact rulesOf_entries v hsound.rules
  have hexcludes : readOr (.ofValue v) "excludePatterns" (asTexts (.ofValue v))
      settings.excludePatterns (Data.ofFields written.mappingEntries) = .ok written.excludePatterns := by
    have hdata : dataAt? (.ofValue v) "excludePatterns" (Data.ofFields written.mappingEntries) =
        some (.ofValue (.ofTexts written.excludePatterns)) :=
      dataAt?_ofFields v _ _
    rw [readOr, hdata]
    exact asTexts_ofTexts v written.excludePatterns
  have hentry : Value.entry "dependencyMapping" written.mappingEntries =
      .map (Table.mapEntries .string written.renames) := rfl
  have hrenames := @renamesOf_mapEntries v written.renames [] hsound.renamedOnce hsound.renamed
  unfold withMapping
  rw [hrules, entry_ofFields, hentry, entriesOf_ofValue, hnone, hrenames, hexcludes]
  rfl

theorem withGeneration_generationEntries (v : Value) (written : Settings) :
    withGeneration (.ofValue v) (Data.ofFields written.generationEntries) settings =
      { settings with
        withExamples := written.withExamples
        withItems := written.withItems
        validated := written.validated } := by
  have hexamples : Value.entry "includeStoryExamples" written.generationEntries =
      .bool written.withExamples := rfl
  have hitems : Value.entry "generateIndividualItems" written.generationEntries =
      .bool written.withItems := rfl
  have hvalidated : Value.entry "validateOutput" written.generationEntries =
      .bool written.validated := rfl
  unfold withGeneration
  simp only [entry_ofFields, hexamples, hitems, hvalidated]
  rfl

/-- The settings with every path as it is written. -/
def reread (settings : Settings) : Settings :=
  { settings with
    storybookPath := settings.root.child (settings.shownPath settings.storybookPath)
    componentsPath := settings.root.child (settings.shownPath settings.componentsPath)
    tsconfigPath := settings.root.child (settings.shownPath settings.tsconfigPath)
    registryPath := settings.root.child (settings.shownPath settings.registryPath)
    homepage := settings.homepage.filter (!·.isEmpty) }

/-- From the entries of sound settings these are read, with every path as it is written. -/
theorem ofEntries_entries (h : settings.IsSound) :
    ofEntries (.ofValue (.map settings.entries)) settings.root (Data.ofFields settings.entries) =
      .ok settings.reread := by
  have hpart (name : String) (fields : Table Value)
      (hentry : Value.entry name settings.entries = .map fields) :
      entriesOf (entry (.ofValue (.map settings.entries)) name (Data.ofFields settings.entries)) =
        Data.ofFields fields := by
    rw [entry_ofFields, hentry, entriesOf_ofValue]
  unfold ofEntries
  dsimp only
  rw [hpart "input" settings.inputEntries rfl, hpart "output" settings.outputEntries rfl,
    hpart "mapping" settings.mappingEntries rfl, hpart "generation" settings.generationEntries rfl,
    withInput_inputEntries _ h]
  dsimp only [bind, Except.bind]
  rw [withOutput_outputEntries _ h]
  dsimp only
  rw [withMapping_mappingEntries _ h rfl]
  dsimp only
  rw [withGeneration_generationEntries]
  simp only [pure, Except.pure, reread, ofRoot, Option.orElse_eq_orElse, Option.orElse_eq_or,
    Option.or_none]

/-! ## What is written from settings that were read again -/

/-- The paths that settings give. -/
def paths (settings : Settings) : List Path :=
  [settings.storybookPath, settings.componentsPath, settings.tsconfigPath, settings.registryPath]

/-- Texts without backslashes give the paths. -/
def HasPlainPaths (settings : Settings) : Prop :=
  ∀ p ∈ settings.paths, ∃ text : String, '\\' ∉ text.toList ∧ settings.root.child text = p

/-- A path that a text without backslashes gives is written as the way to it. -/
theorem child_shownPath (hroot : settings.root.IsRoot) {text : String} (htext : '\\' ∉ text.toList) :
    settings.root.child (settings.shownPath (settings.root.child text)) =
      settings.root.join ((settings.root.child text).wayTo settings.root) := by
  have hway : Path.ofString ((settings.root.child text).relativeTo settings.root) =
      (settings.root.child text).wayTo settings.root :=
    Path.ofString_toText (Nat.zero_le 2) (Path.isSegment_wayTo_child hroot)
  have hslashes := Path.map_slash_of_not_mem (Path.noBackslash_relativeTo_child hroot htext)
  unfold shownPath
  rw [hslashes]
  dsimp only
  rw [Path.child, ← hway]
  split
  · rfl
  · rw [Path.ofString_dot (by rw [hway]; rfl)]

/-- The way in which a path is written is that of the path which is read from it. -/
theorem shownPath_reread (hroot : settings.root.IsRoot) {p : Path}
    (hp : ∃ text : String, '\\' ∉ text.toList ∧ settings.root.child text = p) :
    settings.reread.shownPath (settings.root.child (settings.shownPath p)) = settings.shownPath p := by
  obtain ⟨text, htext, rfl⟩ := hp
  have habsolute : (settings.root.child text).isAbsolute = true :=
    Path.isAbsolute_join hroot.isAbsolute _
  have hway : (settings.root.child (settings.shownPath (settings.root.child text))).relativeTo
      settings.root = (settings.root.child text).relativeTo settings.root := by
    rw [child_shownPath hroot htext, Path.relativeTo_eq, Path.relativeTo_eq,
      Path.wayTo_congr (Path.normal_join_wayTo hroot habsolute)]
  have hshown (p : Path) : settings.reread.shownPath p = settings.shownPath p := rfl
  rw [hshown]
  unfold shownPath at hway ⊢
  rw [hway]

/-- Settings whose paths are given without backslashes have the same entries when they are read
again. -/
theorem entries_reread (hroot : settings.root.IsRoot) (hpaths : settings.HasPlainPaths) :
    settings.reread.entries = settings.entries := by
  simp only [HasPlainPaths, paths, List.forall_mem_cons] at hpaths
  obtain ⟨hstorybook, hcomponents, htsconfig, hregistry, -⟩ := hpaths
  have hinput : settings.reread.inputEntries = settings.inputEntries := by
    unfold inputEntries
    rw [← shownPath_reread hroot hstorybook, ← shownPath_reread hroot hcomponents,
      ← shownPath_reread hroot htsconfig]
    rfl
  have houtput : settings.reread.outputEntries = settings.outputEntries := by
    have hhomepage : settings.reread.homepage.filter (!·.isEmpty) =
        settings.homepage.filter (!·.isEmpty) := by
      simp [reread, Option.filter_filter]
    unfold outputEntries
    rw [hhomepage, ← shownPath_reread hroot hregistry]
    rfl
  have hmapping : settings.reread.mappingEntries = settings.mappingEntries := rfl
  have hgeneration : settings.reread.generationEntries = settings.generationEntries := rfl
  rw [entries, hinput, houtput, hmapping, hgeneration, entries]

end Settings

end StoryRegistry
