import Mathlib
import PairGrep.Settings.Load
import PairGrep.Proofs.Toml.Keys
import PairGrep.Proofs.Settings.Layering

/-!
# Settings are the file's or the default

Each of the three settings is what the settings file has for it, and the built-in one where the file
has nothing, whatever else the file says. Main statement: loading a settings file of TOML succeeds
exactly where each setting that it has is of the right kind, and then gives these settings; the
default path is read in the same way, and without a file the built-in settings are used.
-/

namespace PairGrep

namespace Toml

variable {doc : List (String × Value)} {table name standard : String} {v : Value}

/-- What a document has under a name of one of its tables. -/
def setting? (doc : List (String × Value)) (table name : String) : Option Value :=
  match doc.lookup table with
  | some (.table entries) => entries.lookup name
  | _ => none

/-- May the value stand for a setting? Moments and tables do not. -/
def Value.IsField : Value → Prop
  | .moment _ | .table _ => False
  | _ => True

def Value.plainText? : Value → Option String
  | .text s => some s
  | .integer n => some (String.ofList (Number.intText n))
  | .real x => some (String.ofList x.text)
  | .boolean b => some (if b then "true" else "false")
  | _ => none

theorem ofTomlEntries_eq_map (entries : List (String × Value)) :
    Setting.ofTomlEntries entries = entries.map fun p => (p.1, Setting.ofToml p.2) := by
  induction entries with
  | nil => rfl
  | cons p rest ih => rw [Setting.ofTomlEntries, ih, List.map_cons]

theorem keys_ofTomlEntries (entries : List (String × Value)) :
    (Setting.ofTomlEntries entries).map Prod.fst = entries.map Prod.fst := by
  rw [ofTomlEntries_eq_map, List.map_map]
  rfl

theorem lookup_ofTomlEntries (entries : List (String × Value)) (key : String) :
    (Setting.ofTomlEntries entries).lookup key = (entries.lookup key).map Setting.ofToml := by
  induction entries with
  | nil => rfl
  | cons p rest ih =>
    obtain ⟨k, v⟩ := p
    rw [Setting.ofTomlEntries, List.lookup_cons, List.lookup_cons, ih]
    split <;> rfl

theorem field?_ofTomlEntries (doc : List (String × Value)) (table name : String) :
    (Setting.table (Setting.ofTomlEntries doc)).field? table name =
      (setting? doc table name).map Setting.ofToml := by
  unfold setting?
  rw [Setting.field?, lookup_ofTomlEntries]
  cases doc.lookup table with
  | none => rfl
  | some v => cases v <;> simp [Setting.ofToml, lookup_ofTomlEntries]

theorem Value.IsField.merge_ofToml (h : v.IsField) (old : Setting) :
    Setting.merge old (Setting.ofToml v) = Setting.ofToml v := by
  cases v <;> simp_all [Value.IsField, Setting.ofToml, Setting.merge]

theorem Value.IsField.asText?_ofToml (h : v.IsField) :
    (Setting.ofToml v).asText? = v.plainText? := by
  cases v <;> simp_all [Value.IsField, Setting.ofToml, Setting.asText?, Value.plainText?]

end Toml

namespace Settings

open Toml Setting

/-- A key at the top of a document that is a path to a setting, or to what would put another thing in
its place. -/
def ReachesSetting (key : String) : Prop :=
  Reaches "scan" "key_pattern" (pathOf key) ∨ Reaches "scan" "value_pattern" (pathOf key) ∨
    Reaches "output" "format" (pathOf key)

instance (key : String) : Decidable (ReachesSetting key) := inferInstanceAs (Decidable (_ ∨ _ ∨ _))

/-- A document with settings in tables and nowhere else: scan and output are tables where they are
there, what they have for a setting is neither a moment nor a table, and no other key leads to a
setting. -/
structure IsLayer (doc : List (String × Value)) : Prop where
  tables : ∀ table ∈ ["scan", "output"], ∀ v, doc.lookup table = some v → ∃ es, v = .table es
  patterns : ∀ name ∈ ["key_pattern", "value_pattern"], ∀ v,
    setting? doc "scan" name = some v → v.IsField
  format : ∀ v, setting? doc "output" "format" = some v → v.IsField
  keys : ∀ p ∈ doc, p.1 ≠ "scan" → p.1 ≠ "output" → ¬ ReachesSetting p.1

section Trees

variable {s : Setting} {doc : List (String × Value)} {table name : String} {key value format : Setting}
  {settings : Settings}

private theorem matcherOf?_table {scan : List (String × Setting)}
    (hkey : scan.lookup "key_pattern" = some key) (hvalue : scan.lookup "value_pattern" = some value) :
    matcherOf? (.table scan) = (do return ⟨← key.asText?, ← value.asText?⟩) := by
  simp only [matcherOf?, section?, List.map_cons, List.map_nil, hkey, hvalue, patternOf?]
  rfl

private theorem outputOf?_table {output : List (String × Setting)}
    (hformat : output.lookup "format" = some format) :
    outputOf? (.table output) = format.asChoice?.bind formatOf? := by
  simp only [outputOf?, section?, List.map_cons, List.map_nil, hformat]
  rfl

theorem ofTree_eq_ok_iff (hkey : s.field? "scan" "key_pattern" = some key)
    (hvalue : s.field? "scan" "value_pattern" = some value)
    (hformat : s.field? "output" "format" = some format) :
    ofTree s = .ok settings ↔ key.asText? = some settings.matcher.keyPattern ∧
      value.asText? = some settings.matcher.valuePattern ∧
      format.asChoice?.bind formatOf? = some settings.format := by
  obtain ⟨root, scan, rfl, hscan, hkey⟩ := field?_eq_some_iff.mp hkey
  obtain ⟨_, _, hroot, hscan', hvalue⟩ := field?_eq_some_iff.mp hvalue
  obtain ⟨_, output, hroot', houtput, hformat⟩ := field?_eq_some_iff.mp hformat
  obtain rfl := Setting.table.inj hroot
  obtain rfl := Setting.table.inj hroot'
  rw [hscan, Option.some.injEq, Setting.table.injEq] at hscan'
  subst hscan'
  simp only [ofTree, Setting.entries, hscan, houtput, matcherOf?_table hkey hvalue,
    outputOf?_table hformat]
  obtain ⟨⟨k, v⟩, f⟩ := settings
  cases key.asText? <;> cases value.asText? <;> cases format.asChoice?.bind formatOf? <;>
    simp [bind, Except.bind, pure, Except.pure, and_assoc]

end Trees

section Layers

variable {doc : List (String × Value)} {settings : Settings}

private theorem asText?_layered {o : Option Value} (ho : ∀ v, o = some v → v.IsField)
    (standard : String) :
    ((o.map ofToml).elim (.text standard) (merge (.text standard))).asText? =
      o.elim (some standard) Value.plainText? := by
  cases o with
  | none => rfl
  | some v =>
    have hv : v.IsField := ho v rfl
    simp only [Option.map_some, Option.elim_some, hv.merge_ofToml, hv.asText?_ofToml]

def formatOfValue? : Value → Option Format
  | .text s => formatOf? s
  | _ => none

private theorem asChoice?_layered {o : Option Value} (ho : ∀ v, o = some v → v.IsField) :
    ((o.map ofToml).elim (.text "lines") (merge (.text "lines"))).asChoice?.bind formatOf? =
      o.elim (some .lines) formatOfValue? := by
  cases o with
  | none => rfl
  | some v =>
    have hv : v.IsField := ho v rfl
    simp only [Option.map_some, Option.elim_some, hv.merge_ofToml]
    cases v <;> simp_all [Value.IsField, ofToml, asChoice?, formatOfValue?]

private theorem pathOf_scan : pathOf "scan" = [.key "scan"] := by decide

private theorem pathOf_output : pathOf "output" = [.key "output"] := by decide

private theorem IsLayer.not_reaches (h : IsLayer doc) {table name : String}
    (hreaches : ∀ key, Reaches table name (pathOf key) → ReachesSetting key) :
    ∀ p ∈ doc, p.1 ≠ table → ¬ Reaches table name (pathOf p.1) := by
  intro p hp hne hreach
  by_cases hscan : p.1 = "scan"
  · rw [hscan, pathOf_scan] at hreach
    exact hne (hscan.trans hreach)
  · by_cases houtput : p.1 = "output"
    · rw [houtput, pathOf_output] at hreach
      exact hne (houtput.trans hreach)
    · exact h.keys p hp hscan houtput (hreaches _ hreach)

private theorem IsLayer.field?_layer (h : IsLayer doc) (hdoc : Distinct (.table doc))
    {table name : String} {old : Setting} (hold : defaultTree.field? table name = some old)
    (htable : table ∈ ["scan", "output"]) (hpath : pathOf table = [.key table])
    (hreaches : ∀ key, Reaches table name (pathOf key) → ReachesSetting key) :
    (defaultTree.layer (ofTomlEntries doc)).field? table name =
      some (((setting? doc table name).map ofToml).elim old (merge old)) := by
  rw [← field?_ofTomlEntries]
  refine Setting.field?_layer hold hpath (by rw [keys_ofTomlEntries]; exact hdoc.keys) ?_ ?_
  · intro t ht
    rw [lookup_ofTomlEntries] at ht
    obtain ⟨v, hv, rfl⟩ := Option.map_eq_some_iff.mp ht
    obtain ⟨es, rfl⟩ := h.tables table htable v hv
    exact ⟨_, rfl, by rw [keys_ofTomlEntries]; exact (hdoc.of_mem (mem_of_lookup hv)).keys⟩
  · rw [ofTomlEntries_eq_map, List.forall_mem_map]
    exact h.not_reaches hreaches

/-- The settings of a document over the built-in ones, field by field. -/
theorem IsLayer.ofTree_eq_ok_iff (h : IsLayer doc) (hdoc : Distinct (.table doc)) :
    ofTree (defaultTree.layer (ofTomlEntries doc)) = .ok settings ↔
      (setting? doc "scan" "key_pattern").elim (some defaultKeyPattern) Value.plainText? =
        some settings.matcher.keyPattern ∧
      (setting? doc "scan" "value_pattern").elim (some defaultValuePattern) Value.plainText? =
        some settings.matcher.valuePattern ∧
      (setting? doc "output" "format").elim (some .lines) formatOfValue? = some settings.format := by
  have hkey : (defaultTree.layer (ofTomlEntries doc)).field? "scan" "key_pattern" = _ :=
    h.field?_layer hdoc rfl (by simp) pathOf_scan fun _ => .inl
  have hvalue : (defaultTree.layer (ofTomlEntries doc)).field? "scan" "value_pattern" = _ :=
    h.field?_layer hdoc rfl (by simp) pathOf_scan fun _ hreach => .inr (.inl hreach)
  have hformat : (defaultTree.layer (ofTomlEntries doc)).field? "output" "format" = _ :=
    h.field?_layer hdoc rfl (by simp) pathOf_output fun _ hreach => .inr (.inr hreach)
  rw [Settings.ofTree_eq_ok_iff hkey hvalue hformat,
    asText?_layered (h.patterns _ (by simp)), asText?_layered (h.patterns _ (by simp)),
    asChoice?_layered h.format]

end Layers

section Paths

variable {files : Files} {env : Environment} {path : String} {bytes : List UInt8}

private theorem splitSlash_ne_nil (cs : List Char) : splitSlash cs ≠ [] := by
  fun_cases splitSlash cs <;> simp_all

private theorem splitSlash_append (cs ds : List Char) :
    splitSlash (cs ++ '/' :: ds) = splitSlash cs ++ splitSlash ds := by
  fun_induction splitSlash cs with
  | case1 => rfl
  | case2 rest ih => rw [List.cons_append, splitSlash, ih, List.cons_append]
  | case3 c rest hc part parts hparts ih =>
    rw [hparts, List.cons_append] at ih
    rw [List.cons_append, splitSlash, ih, List.cons_append]
    exact hc
  | case4 c rest _ hnil => exact absurd hnil (splitSlash_ne_nil rest)

private theorem exists_defaultPath (env : Environment) :
    ∃ base : String, defaultPath env = base ++ "/" ++ "config.toml" := by
  have hjoin : ∀ base, join (join base "jgrep") "config.toml" =
      join base "jgrep" ++ "/" ++ "config.toml" := by
    intro base
    have hinner : join base "jgrep" ≠ "" ∧ (join base "jgrep").toList.getLast? = some 'p' := by
      unfold join
      split_ifs <;> simp
    rw [join, if_neg hinner.1, if_neg (by rw [hinner.2]; decide)]
  exact ⟨_, hjoin _⟩

theorem namedParts_defaultPath (env : Environment) :
    ∃ outer, namedParts (defaultPath env) = "config.toml".toList :: outer := by
  obtain ⟨base, hbase⟩ := exists_defaultPath env
  have hsplit : splitSlash (defaultPath env).toList =
      splitSlash base.toList ++ ["config.toml".toList] := by
    rw [hbase, String.toList_append, String.toList_append, List.append_assoc]
    exact splitSlash_append _ "config.toml".toList
  have hlast : ["config.toml".toList].filter (fun part => part != [] && part != ['.']) =
      ["config.toml".toList] := by decide
  rw [namedParts, hsplit, List.filter_append, List.reverse_append, hlast]
  exact ⟨_, rfl⟩

theorem extension?_defaultPath (env : Environment) :
    extension? (defaultPath env) = some ['t', 'o', 'm', 'l'] := by
  obtain ⟨outer, houter⟩ := namedParts_defaultPath env
  rw [extension?, houter]
  rfl

theorem alternatives_defaultPath (env : Environment) :
    alternatives (defaultPath env) = extensions.map fun ext => (defaultPath env ++ "." ++ ext, ext) := by
  obtain ⟨outer, houter⟩ := namedParts_defaultPath env
  obtain ⟨base, hbase⟩ := exists_defaultPath env
  have hlast : (defaultPath env).toList.getLast? ≠ some '/' := by
    rw [hbase, String.toList_append]
    simp
  have hname : "config.toml".toList ≠ ['.', '.'] := by decide
  simp only [alternatives, houter, if_neg hname, extension?_defaultPath, Option.isSome_some, if_true,
    if_neg hlast]
  have hbeside : ∀ ext : String, String.ofList ((defaultPath env).toList ++ '.' :: ext.toList) =
      defaultPath env ++ "." ++ ext := by
    intro ext
    rw [String.ofList_append, String.ofList_cons, String.ofList_toList, String.ofList_toList,
      String.append_assoc]
    rfl
  simp only [hbeside]

theorem findFile_of_readBytes? (hfile : files.readBytes? path = some bytes)
    (hextension : extension? path = some ['t', 'o', 'm', 'l']) :
    findFile files path = .ok (path, "toml") := by
  have hisFile : files.isFile path = true := by
    unfold Files.readBytes? at hfile
    unfold Files.isFile
    split at hfile
    · rfl
    · simp at hfile
  rw [findFile, if_pos hisFile, hextension]
  rfl

end Paths

section Loading

variable {files : Files} {path : String} {bytes : List UInt8} {doc : List (String × Value)}

theorem readFile_toml [Readers] (hfile : files.readBytes? path = some bytes)
    (hdoc : document? (decodeText bytes).toList = some doc) :
    readFile files (path, "toml") = ofTree (defaultTree.layer (ofTomlEntries doc)) := by
  rw [readFile, hfile, Option.bind_some, parse?, if_pos rfl, hdoc, Option.map_some]

/-- Without a file at the default path or beside it, the settings are the built-in ones. -/
theorem load_of_no_file [Readers] {env : Environment}
    (hpath : files.isFile (defaultPath env) = false)
    (hbeside : ∀ ext ∈ extensions, files.isFile (defaultPath env ++ "." ++ ext) = false) :
    load files env = .ok default := by
  have hnone : (alternatives (defaultPath env)).find? (fun p => files.isFile p.1) = none := by
    rw [alternatives_defaultPath, List.find?_eq_none]
    simpa using hbeside
  rw [load, findFile, if_neg (by simp [hpath]), hnone]

/-- At the default path a settings file is read as it is under its name. -/
theorem load_eq_loadFrom [Readers] {env : Environment} (hpath : defaultPath env = path)
    (hfile : files.readBytes? path = some bytes) : load files env = loadFrom files path := by
  subst hpath
  have hfound := findFile_of_readBytes? hfile (extension?_defaultPath env)
  rw [load, loadFrom, hfound]
  rfl

private theorem isSome_formatOfValue?_iff {v : Value} :
    (formatOfValue? v).isSome ↔ v = .text "lines" ∨ v = .text "json" := by
  cases v with
  | text s =>
    rw [formatOfValue?, formatOf?, Value.text.injEq, Value.text.injEq]
    split_ifs <;> simp_all
  | _ => simp [formatOfValue?]

private theorem elim_eq_some_iff {α : Type} {o : Option Value} {f : Value → Option α}
    {standard a : α} : o.elim (some standard) f = some a ↔
      (∀ v, o = some v → (f v).isSome) ∧ (o.bind f).getD standard = a := by
  cases o with
  | none => simp
  | some v => cases hf : f v <;> simp [hf]

/-- A settings file of TOML is read exactly where each setting that it has is of the right kind, and
each setting is then the file's or the built-in one by itself. The default path leads to the same
result, and in any tree to the built-in settings where there is no file at it or, with a known
extension, beside it. -/
theorem loadFrom_fields [Readers] (hfile : files.readBytes? path = some bytes)
    (hextension : extension? path = some ['t', 'o', 'm', 'l'])
    (hdoc : document? (decodeText bytes).toList = some doc) (hlayer : IsLayer doc) :
    ((∃ s, loadFrom files path = .ok s) ↔
      (∀ name ∈ ["key_pattern", "value_pattern"], ∀ v, setting? doc "scan" name = some v →
        v.plainText?.isSome) ∧
      ∀ v, setting? doc "output" "format" = some v → v = .text "lines" ∨ v = .text "json") ∧
    (∀ s, loadFrom files path = .ok s →
      s.matcher.keyPattern = ((setting? doc "scan" "key_pattern").bind Value.plainText?).getD
        default.matcher.keyPattern ∧
      s.matcher.valuePattern = ((setting? doc "scan" "value_pattern").bind Value.plainText?).getD
        default.matcher.valuePattern ∧
      s.format = ((setting? doc "output" "format").bind formatOfValue?).getD default.format) ∧
    (∀ env, defaultPath env = join (join (env.configHome.getD (join (env.home.getD ".") ".config"))
      "jgrep") "config.toml") ∧
    (∀ env, defaultPath env = path → load files env = loadFrom files path) ∧
    ∀ (others : Files) (env : Environment), others.isFile (defaultPath env) = false →
      (∀ ext ∈ extensions, others.isFile (defaultPath env ++ "." ++ ext) = false) →
      load others env = .ok default := by
  have hload : loadFrom files path = ofTree (defaultTree.layer (ofTomlEntries doc)) := by
    rw [loadFrom, findFile_of_readBytes? hfile hextension, ← readFile_toml hfile hdoc]
    rfl
  have hfields : ∀ s, ofTree (defaultTree.layer (ofTomlEntries doc)) = .ok s ↔ _ :=
    fun s => hlayer.ofTree_eq_ok_iff (distinct_of_document? hdoc)
  simp only [← hload, elim_eq_some_iff, isSome_formatOfValue?_iff] at hfields
  refine ⟨⟨?_, ?_⟩, ?_, ?_, fun env henv => load_eq_loadFrom henv hfile,
    fun others env => load_of_no_file⟩
  · rintro ⟨s, hs⟩
    obtain ⟨⟨hkey, -⟩, ⟨hvalue, -⟩, hformat, -⟩ := (hfields s).mp hs
    exact ⟨by simpa using ⟨hkey, hvalue⟩, hformat⟩
  · rintro ⟨hpatterns, hformat⟩
    exact ⟨⟨⟨_, _⟩, _⟩, (hfields _).mpr ⟨⟨hpatterns _ (by simp), rfl⟩,
      ⟨hpatterns _ (by simp), rfl⟩, hformat, rfl⟩⟩
  · intro s hs
    obtain ⟨⟨-, hkey⟩, ⟨-, hvalue⟩, -, hformat⟩ := (hfields s).mp hs
    exact ⟨hkey.symm, hvalue.symm, hformat.symm⟩
  · rintro ⟨configHome, home⟩
    cases configHome <;> rfl

def oneFile (path text : String) : Files := (FileTree.empty.write path (Utf8.encode text)).files

def themedText : String := "theme = 1\n[scan]\nkey_pattern = 31\n[output]\nformat = 'json'\n"

def themedDocument : List (String × Value) :=
  [("theme", .integer 1), ("scan", .table [("key_pattern", .integer 31)]),
    ("output", .table [("format", .text "json")])]

private theorem isLayer_themedDocument : IsLayer themedDocument where
  tables := by
    intro table htable v hv
    rcases List.mem_pair.mp htable with rfl | rfl <;> exact ⟨_, (Option.some.inj hv).symm⟩
  patterns := by
    intro name hname v hv
    rcases List.mem_pair.mp hname with rfl | rfl
    · obtain rfl : .integer 31 = v := Option.some.inj hv
      trivial
    · exact absurd hv nofun
  format := by
    intro v hv
    obtain rfl : .text "json" = v := Option.some.inj hv
    trivial
  keys := by
    simp only [themedDocument, List.forall_mem_cons]
    decide

theorem loadFrom_themed :
    loadFrom (oneFile "conf/jgrep/config.toml" themedText) "conf/jgrep/config.toml" =
        .ok ⟨⟨"31", defaultValuePattern⟩, .json⟩ ∧
      load (oneFile "conf/jgrep/config.toml" themedText) ⟨some "conf", none⟩ =
        .ok ⟨⟨"31", defaultValuePattern⟩, .json⟩ ∧
      load (oneFile "conf/jgrep/config.toml" themedText) ⟨none, none⟩ = .ok default := by
  have hfile : (oneFile "conf/jgrep/config.toml" themedText).readBytes? "conf/jgrep/config.toml" =
      some (Utf8.encode themedText) := by decide +kernel
  have hdoc : document? (decodeText (Utf8.encode themedText)).toList = some themedDocument := by cbv
  obtain ⟨hok, hfields, -, hload, hdefault⟩ :=
    loadFrom_fields hfile (by decide) hdoc isLayer_themedDocument
  have hkey : setting? themedDocument "scan" "key_pattern" = some (.integer 31) := rfl
  have hvalue : setting? themedDocument "scan" "value_pattern" = none := rfl
  have hformat : setting? themedDocument "output" "format" = some (.text "json") := rfl
  simp only [List.forall_mem_cons, hkey, hvalue, hformat] at hok hfields
  obtain ⟨s, hs⟩ := hok.mpr (by simp [Value.plainText?])
  have hfound : s = ⟨⟨"31", defaultValuePattern⟩, .json⟩ := by
    obtain ⟨⟨key, value⟩, format⟩ := s
    obtain ⟨rfl, rfl, rfl⟩ := hfields _ hs
    decide
  rw [hfound] at hs
  exact ⟨hs, (hload _ (by decide)).trans hs, hdefault _ _ (by decide) (by decide)⟩

/-- A key in quotes with a dot sets nothing under scan, and is read as a path into it. -/
theorem loadFrom_quotedPath :
    document? (decodeText (Utf8.encode "\"scan.key_pattern\" = \"x\"\n")).toList =
        some [("scan.key_pattern", .text "x")] ∧
      setting? [("scan.key_pattern", .text "x")] "scan" "key_pattern" = none ∧
      loadFrom (oneFile "c.toml" "\"scan.key_pattern\" = \"x\"\n") "c.toml" =
        .ok ⟨⟨"x", defaultValuePattern⟩, .lines⟩ ∧
      default.matcher.keyPattern ≠ "x" := by
  refine ⟨by cbv, rfl, by decide +kernel, by decide⟩

end Loading

end Settings

end PairGrep
