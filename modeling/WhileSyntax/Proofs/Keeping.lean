import Mathlib.Data.List.Nodup
import WhileSyntax.Proofs.Entries
import WhileSyntax.Settings
namespace WhileSyntax

/-! # Settings written and read

The document of settings has one entry for each field. Any of the entries, in any order, are read as
settings that have their fields and are the default ones otherwise; so all of them are read as the
settings that were written.
-/

namespace Settings

/-- A field of the settings, which has an entry of its own. -/
inductive Field where
  | title
  | format
  | indent
  deriving DecidableEq, Repr

def line (c : Settings) : Field → String
  | .title => c.titleLine
  | .format => c.formatLine
  | .indent => c.indentLine

/-- The settings that are as given in some fields, and the default ones in the others. -/
def only (c : Settings) (fields : List Field) : Settings where
  title := if .title ∈ fields then c.title else default.title
  format := if .format ∈ fields then c.format else default.format
  indent := if .indent ∈ fields then c.indent else default.indent

/-! ## Entries -/

def Field.key : Field → String
  | .title => "title"
  | .format => "format"
  | .indent => "indent"

theorem Field.key_injective : Function.Injective Field.key := by
  intro f g h
  cases f <;> cases g <;> first | rfl | exact absurd h (by decide)

theorem Field.toList_key_ne (f : Field) : f.key.toList ≠ [] := by
  cases f <;> decide

theorem Field.isKeyChar_key (f : Field) : ∀ c ∈ f.key.toList, Toml.isKeyChar c = true := by
  cases f <;> exact List.all_eq_true.1 (by decide)

/-- An indent is not too large to be read. -/
theorem ofNat_lt_of_lt_indentBound {n : Nat} (h : n < indentBound) :
    Int.ofNat n < Int.pow 2 128 := by
  have hbound : Int.ofNat indentBound ≤ Int.pow 2 128 := by decide
  exact Int.lt_of_lt_of_le (Int.ofNat_lt.2 h) hbound

variable {c : Settings} {fields : List Field}

def entry (c : Settings) (h : c.indent < indentBound) (f : Field) : Toml.Entry where
  key := f.key
  datum :=
    match f with
    | .title => .text c.title
    | .format => .text c.format.name
    | .indent => .number c.indent (ofNat_lt_of_lt_indentBound h)
  key_ne := f.toList_key_ne
  bare := f.isKeyChar_key

theorem toList_line (h : c.indent < indentBound) (f : Field) :
    (c.line f).toList = (c.entry h f).line := by
  cases f <;> simp [line, titleLine, formatLine, indentLine, Toml.Entry.line, entry, Field.key,
    Toml.Datum.written]

theorem join_lines (h : c.indent < indentBound) (fields : List Field) :
    String.join (fields.map c.line) =
      String.ofList ((fields.map (c.entry h)).flatMap Toml.Entry.line) := by
  rw [← String.toList_inj, String.toList_join, String.toList_ofList, List.flatMap_map,
    List.flatMap_map]
  exact congrArg (fields.flatMap ·) (funext (toList_line h))

/-! ## Reading them -/

theorem get?_entries (h : c.indent < indentBound) (fields : List Field) (f : Field) :
    Toml.Table.get? (fields.map fun g => (g.key, (c.entry h g).datum.value)) f.key =
      if f ∈ fields then some (c.entry h f).datum.value else none := by
  induction fields with
  | nil => rfl
  | cons g fields ih =>
    rw [Toml.Table.get?] at ih ⊢
    rw [List.map_cons, List.lookup_cons]
    by_cases hfield : f = g
    · simp [hfield]
    · -- another field has another key
      have hkey : (f.key == g.key) = false := by
        rw [beq_eq_false_iff_ne]
        exact fun hkey => hfield (Field.key_injective hkey)
      simp only [hkey, ih, List.mem_cons, hfield, false_or]

theorem setting_entries {α : Type} (h : c.indent < indentBound) (fields : List Field) (f : Field)
    (read : Toml.Value → Option α) (fallback : α) :
    setting (fields.map fun g => (g.key, (c.entry h g).datum.value)) f.key read fallback =
      if f ∈ fields then read (c.entry h f).datum.value else some fallback := by
  rw [setting, get?_entries]
  by_cases hf : f ∈ fields
  · rw [if_pos hf, if_pos hf]
  · rw [if_neg hf, if_neg hf]

theorem ofName?_name (p : Printout) : Printout.ofName? p.name = some p := by
  cases p <;> rfl

theorem indent?_ofNat {n : Nat} (h : n < indentBound) :
    indent? (.integer (Int.ofNat n)) = some n := by
  rw [indent?, if_pos ⟨Int.natCast_nonneg n, Int.ofNat_lt.2 h⟩]
  rfl

theorem ofTable?_entries (h : c.indent < indentBound) (fields : List Field) :
    ofTable? (fields.map fun g => (g.key, (c.entry h g).datum.value)) = some (c.only fields) := by
  have htitle := setting_entries h fields .title title? default.title
  have hformat := setting_entries h fields .format format? default.format
  have hindent := setting_entries h fields .indent indent? default.indent
  -- what is read of an entry is what was written
  have hread : title? (c.entry h .title).datum.value = some c.title ∧
      format? (c.entry h .format).datum.value = some c.format ∧
      indent? (c.entry h .indent).datum.value = some c.indent :=
    ⟨rfl, ofName?_name c.format, indent?_ofNat h⟩
  rw [hread.1, ← apply_ite some] at htitle
  rw [hread.2.1, ← apply_ite some] at hformat
  rw [hread.2.2, ← apply_ite some] at hindent
  show (do
    let title ← setting _ Field.title.key title? default.title
    let format ← setting _ Field.format.key format? default.format
    let indent ← setting _ Field.indent.key indent? default.indent
    some (⟨title, format, indent⟩ : Settings)) = _
  rw [htitle, hformat, hindent]
  rfl

/-- The entries of some fields, in any order, are read as the settings that have these fields. -/
theorem ofText?_lines (h : c.indent < indentBound) (hfields : fields.Nodup) :
    ofText? (String.join (fields.map c.line)) = some (c.only fields) := by
  have hkeys : ((fields.map (c.entry h)).map Toml.Entry.key).Nodup := by
    rw [List.map_map]
    exact hfields.map Field.key_injective
  rw [ofText?, join_lines h, Toml.read?_document hkeys, Option.bind_some, List.map_map]
  exact ofTable?_entries h fields

theorem load_lines (h : c.indent < indentBound) (hfields : fields.Nodup) {read : Reader}
    {path : String} (hread : read path = .ok (String.join (fields.map c.line))) :
    load read path = .ok (some (c.only fields)) := by
  simp only [load, hread, ofText?_lines h hfields]

end Settings

/-- The document of settings is the lines of its fields. Any of the lines, in any order, load as the
settings that are as written in their fields and the default ones in the others; so the document
loads as the settings that were written. -/
theorem settings_survive_writing (c : Settings) (hindent : c.indent < Settings.indentBound) :
    c.render = String.join ([.title, .format, .indent].map c.line) ∧
      (∀ (fields : List Settings.Field) (read : Reader) (path : String), fields.Nodup →
        read path = .ok (String.join (fields.map c.line)) →
          Settings.load read path = .ok (some (c.only fields))) ∧
      ∀ (read : Reader) (path : String), read path = .ok c.render →
        Settings.load read path = .ok (some c) := by
  have hrender : c.render = String.join ([.title, .format, .indent].map c.line) := by
    rw [← String.toList_inj]
    simp [Settings.render, Settings.line]
  refine ⟨hrender, ?_, ?_⟩
  · intro fields read path hfields hread
    exact Settings.load_lines hindent hfields hread
  · intro read path hread
    rw [hrender] at hread
    exact Settings.load_lines hindent (by decide) hread

/-- A title with both delimiters, a backslash, a newline and a control character, and the largest
indent; the entries are read from behind, without the format. -/
theorem settings_survive_writing_reordered :
    let c : Settings := ⟨"\"it's\\\n\x00", .events, 18446744073709551615⟩
    c.indent < Settings.indentBound ∧
      Settings.load (fun _ => .ok (c.indentLine ++ c.titleLine)) "" =
        .ok (some ⟨"\"it's\\\n\x00", .tree, 18446744073709551615⟩) := by
  intro c
  have hindent : c.indent < Settings.indentBound := by decide
  refine ⟨hindent, ?_⟩
  exact (settings_survive_writing c hindent).2.1 [.indent, .title] _ "" (by decide) rfl

end WhileSyntax
