import Mathlib
import PairGrep.Input
import PairGrep.Proofs.Text.Utf8

/-!
# The shapes of one document

A text can be given as itself, as its bytes, and as a path to a file that holds them. Main statement:
whichever it is, resolving gives the text if it is JSON and else the error that quotes its start; bytes
that encode no text give the error that quotes what can be read of them.
-/

namespace PairGrep.Input

/-- The text if it is JSON, and else the error that quotes its first fifty characters. -/
def verdict (text : String) : Except InputError String :=
  if Json.isJson text then .ok text else .error ⟨String.ofList (text.toList.take 50)⟩

theorem checked_eq_verdict (text : String) : checked text = verdict text := rfl

section File

variable {files : Files} {path text : String}

private theorem isFile_of_entry? {bytes : List UInt8} (h : files.entry? path = some (.file bytes)) :
    files.isFile path = true := by
  simp [Files.isFile, h]

private theorem readChecked_of_entry? (h : files.entry? path = some (.file (Utf8.encode text))) :
    readChecked files path = verdict text := by
  have hread : files.readText? path = some text := by
    simp [Files.readText?, Files.readBytes?, h, Utf8.decodeStrict?_eq_some_iff]
  rw [readChecked, hread]
  exact checked_eq_verdict text

theorem resolve_path (h : files.entry? path = some (.file (Utf8.encode text))) :
    resolve files (.path path) = verdict text :=
  readChecked_of_entry? h

theorem resolve_text_of_entry? (h : files.entry? path = some (.file (Utf8.encode text)))
    (hpath : Json.isJson path = false) : resolve files (.text path) = verdict text := by
  simp [resolve, hpath, isFile_of_entry? h, readChecked_of_entry? h]

theorem resolve_text_self (h : Json.isJson text = true ∨ files.isFile text = false) :
    resolve files (.text text) = verdict text := by
  cases hjson : Json.isJson text with
  | true => simp [resolve, verdict, hjson]
  | false =>
    have hfile : files.isFile text = false := by simpa [hjson] using h
    simp [resolve, verdict, hjson, hfile, InputError.quoting, InputError.previewLength]

end File

theorem resolve_bytes_encode (files : Files) (text : String) :
    resolve files (.bytes (Utf8.encode text)) = verdict text := by
  have hdecode : Utf8.decodeStrict? (Utf8.encode text) = some text :=
    Utf8.decodeStrict?_eq_some_iff.mpr rfl
  rw [resolve, ofBytes, hdecode]
  exact checked_eq_verdict text

theorem resolve_bytes_of_ne (files : Files) {bs : List UInt8} (h : ∀ text, Utf8.encode text ≠ bs) :
    ∃ parts, Utf8.Decodes bs parts ∧
      resolve files (.bytes bs) =
        .error ⟨String.ofList ((parts.map (·.getD '\uFFFD')).take 50)⟩ := by
  have hdecode : Utf8.decodeStrict? bs = none := by
    rw [Option.eq_none_iff_forall_not_mem]
    intro text htext
    exact h text (Utf8.decodeStrict?_eq_some_iff.mp htext)
  refine ⟨Utf8.decode bs, Utf8.decodes_decode bs, ?_⟩
  rw [resolve, ofBytes, hdecode]
  simp [InputError.quoting, InputError.previewLength, Utf8.decodeLossy]

/-- All shapes of a document resolve alike, in success and in failure. -/
theorem resolve_shapes (files : Files) (path text : String)
    (hfile : files.entry? path = some (.file (Utf8.encode text))) :
    resolve files (.bytes (Utf8.encode text)) = verdict text ∧
      resolve files (.path path) = verdict text ∧
      (Json.isJson path = false → resolve files (.text path) = verdict text) ∧
      (∀ files' : Files, Json.isJson text = true ∨ files'.isFile text = false →
        resolve files' (.text text) = verdict text) ∧
      ∀ (files' : Files) (bs : List UInt8), (∀ s, Utf8.encode s ≠ bs) →
        ∃ parts, Utf8.Decodes bs parts ∧
          resolve files' (.bytes bs) =
            .error ⟨String.ofList ((parts.map (·.getD '\uFFFD')).take 50)⟩ :=
  ⟨resolve_bytes_encode files text, resolve_path hfile, resolve_text_of_entry? hfile,
    fun _ => resolve_text_self, fun files' _ => resolve_bytes_of_ne files'⟩

theorem resolve_shapes_words :
    let files : Files := ⟨fun p => if p = "list" then some (.file (Utf8.encode "not json")) else none⟩
    resolve files (.bytes (Utf8.encode "not json")) = .error ⟨"not json"⟩ ∧
      resolve files (.path "list") = .error ⟨"not json"⟩ ∧
      resolve files (.text "list") = .error ⟨"not json"⟩ ∧
      resolve files (.text "not json") = .error ⟨"not json"⟩ ∧
      ∃ parts, Utf8.Decodes [0xFF] parts ∧
        resolve files (.bytes [0xFF]) =
          .error ⟨String.ofList ((parts.map (·.getD '\uFFFD')).take 50)⟩ := by
  intro files
  have hverdict : verdict "not json" = .error ⟨"not json"⟩ := by decide +kernel
  have hlist : Json.isJson "list" = false := by decide +kernel
  have hbytes : ∀ s, Utf8.encode s ≠ [0xFF] := by
    intro s hs
    have hdecode := Utf8.decodeStrict?_eq_some_iff.mpr hs
    have hnone : Utf8.decodeStrict? [0xFF] = none := by decide
    rw [hnone] at hdecode
    simp at hdecode
  obtain ⟨h1, h2, h3, h4, h5⟩ := resolve_shapes files "list" "not json" rfl
  rw [hverdict] at h1 h2 h3 h4
  exact ⟨h1, h2, h3 hlist, h4 files (.inr rfl), h5 files [0xFF] hbytes⟩

end PairGrep.Input
