import Mathlib
import PairGrep.Proofs.Input.Load
import PairGrep.Proofs.Json.Texts

/-!
# What is searched is JSON

Main statement: whatever an input resolves to is valid JSON, and resolves to itself wherever it is
given as a text. The text of a value needs no check for that, and neither does that of encoded data.
-/

namespace PairGrep.Input

variable {files : Files} {input : Input} {text : String}

private theorem of_checked {s : String} (h : checked s = .ok text) :
    Json.isJson text = true := by
  unfold checked at h
  split at h
  · rename_i hjson
    obtain rfl := Except.ok.inj h
    exact hjson
  · cases h

private theorem of_readChecked {path : String} (h : readChecked files path = .ok text) :
    Json.isJson text = true := by
  unfold readChecked at h
  split at h
  · exact of_checked h
  · cases h

private theorem of_ofBytes {bs : List UInt8} (h : ofBytes bs = .ok text) :
    Json.isJson text = true := by
  unfold ofBytes at h
  split at h
  · exact of_checked h
  · cases h

theorem isJson_of_resolve (h : resolve files input = .ok text) : Json.isJson text = true := by
  cases input with
  | text s =>
    simp only [resolve] at h
    split at h
    · rename_i hjson
      obtain rfl := Except.ok.inj h
      exact hjson
    · split at h
      · exact of_readChecked h
      · cases h
  | path p => exact of_readChecked h
  | bytes bs => exact of_ofBytes h
  | structured v =>
    obtain rfl := Except.ok.inj h
    exact v.isJson_render

theorem resolve_text_of_isJson (files : Files) (h : Json.isJson text = true) :
    resolve files (.text text) = .ok text := by
  simp [resolve, h]

theorem resolve_of_ofData {d : Json.Data} (h : ofData d = .ok input) :
    ∃ text, d.encode = .ok text ∧ ∀ files, resolve files input = .ok text := by
  unfold ofData at h
  split at h
  · rename_i text hencode
    obtain rfl := Except.ok.inj h
    have hjson : Json.isJson text = true := Json.Data.isJson_of_encode hencode
    exact ⟨text, hencode, fun files => resolve_text_of_isJson files hjson⟩
  · cases h

/-- Whatever an input resolves to is valid JSON and resolves to itself, under all files; so are the
texts of all values and of all data that can be encoded. -/
theorem resolved_valid :
    (∀ (files : Files) (input : Input) (text : String),
      resolve files input = .ok text ∨ load files input = .ok text →
        Json.isJson text = true ∧
          ∀ files' : Files, resolve files' (.text text) = .ok text ∧
            load files' (.text text) = .ok text) ∧
      (∀ v : Json.Value, Json.isJson v.render = true) ∧
      ∀ (d : Json.Data) (input : Input), ofData d = .ok input →
        ∃ text, d.encode = .ok text ∧
          ∀ files : Files, resolve files input = .ok text ∧ load files input = .ok text := by
  refine ⟨fun files input text h => ?_, Json.Value.isJson_render, fun d input h => ?_⟩
  · rw [load_eq, or_self] at h
    have hjson : Json.isJson text = true := isJson_of_resolve h
    refine ⟨hjson, fun files' => ?_⟩
    rw [load_eq, and_self]
    exact resolve_text_of_isJson files' hjson
  · obtain ⟨text, hencode, hresolve⟩ := resolve_of_ofData h
    refine ⟨text, hencode, fun files => ?_⟩
    rw [load_eq, and_self]
    exact hresolve files

theorem resolved_valid_list :
    resolve ⟨fun _ => none⟩ (.structured (.array [.number (.int 1 (by decide)), .string "a\n"])) =
        .ok "[1,\"a\\n\"]" ∧
      (Json.isJson "[1,\"a\\n\"]" = true ∧
        ∀ files : Files, resolve files (.text "[1,\"a\\n\"]") = .ok "[1,\"a\\n\"]" ∧
          load files (.text "[1,\"a\\n\"]") = .ok "[1,\"a\\n\"]") ∧
      ∃ text, Json.Data.encode (.sequence [.int 1, .value (.string "a\n")]) = .ok text ∧
        ∀ files : Files, resolve files (.text "[1,\"a\\n\"]") = .ok text ∧
          load files (.text "[1,\"a\\n\"]") = .ok text := by
  have hvalue : resolve ⟨fun _ => none⟩
      (.structured (.array [.number (.int 1 (by decide)), .string "a\n"])) =
        .ok "[1,\"a\\n\"]" := by
    decide +kernel
  have hencode : Json.Data.encode (.sequence [.int 1, .value (.string "a\n")]) =
      .ok "[1,\"a\\n\"]" := by
    decide +kernel
  have hdata : ofData (.sequence [.int 1, .value (.string "a\n")]) =
      .ok (.text "[1,\"a\\n\"]") := by
    rw [ofData, hencode]
  obtain ⟨hresolved, -, hencoded⟩ := resolved_valid
  exact ⟨hvalue, hresolved _ _ _ (.inl hvalue), hencoded _ _ hdata⟩

end PairGrep.Input
