import WhileSyntax.Proofs.Derivation
import WhileSyntax.Proofs.Scanning
namespace WhileSyntax

/-! # Lexemes with layout between them

What is one lexeme when it stands alone is the same lexeme in any text where layout or the end
comes behind it. So a text that is written as lexemes with layout between them is scanned into
these lexemes, however much layout there is.
-/

/-- A run of layout characters, which may be empty. -/
def IsGap (cs : List Char) : Prop :=
  ∀ c ∈ cs, Text.isLayout c = true

/-- The text is at its end or goes on with layout. -/
def AtGap (cs : List Char) : Prop :=
  ∀ c ∈ cs.head?, Text.isLayout c = true

/-- The characters are one lexeme if nothing else is there. -/
def IsLexeme : List Char → Prop
  | [] => False
  | c :: cs => Text.isLayout c = false ∧ lexemeReach c cs = cs.length

instance : DecidablePred IsGap := fun cs =>
  List.decidableBAll _ cs

instance : DecidablePred IsLexeme
  | [] => isFalse id
  | _ :: _ => inferInstanceAs (Decidable (_ ∧ _))

theorem IsGap.atGap {cs : List Char} (h : IsGap cs) : AtGap cs := by
  intro c hc
  exact h c (List.mem_of_mem_head? hc)

/-- A gap that is not empty ends what stands before it, whatever comes behind. -/
theorem IsGap.atGap_append {gap cs : List Char} (h : IsGap gap) (hne : gap ≠ []) :
    AtGap (gap ++ cs) := by
  intro c hc
  cases gap with
  | nil => exact absurd rfl hne
  | cons d ds => exact h.atGap c hc

/-! ## Layout ends a lexeme -/

variable {rest : List Char}

theorem AtGap.takeWhile_append (h : AtGap rest) {p : Char → Bool}
    (hp : ∀ d, Text.isLayout d = true → p d = false) (cs : List Char) :
    (cs ++ rest).takeWhile p = cs.takeWhile p := by
  have hrest : rest.takeWhile p = [] := by
    cases rest with
    | nil => rfl
    | cons d ds => simp [hp d (h d rfl)]
  induction cs with
  | nil => exact hrest
  | cons c cs ih => simp [List.takeWhile_cons, ih]

/-- No numeral goes on with layout. -/
theorem AtGap.numeralReach_eq (h : AtGap rest) (n : Nat) : numeralReach n rest = n := by
  have hdigit : ∀ d ∈ rest.head?, d.isDigit = false := fun d hd =>
    Text.isDigit_of_isBlank (Text.isBlank_of_isLayout (h d hd))
  have hpoint : ∀ d ∈ rest.head?, d ≠ '.' := by
    rintro d hd rfl
    exact absurd (h '.' hd) (by decide)
  rcases rest with _ | ⟨d, _ | ⟨e, ds⟩⟩
  · rfl
  · simp [numeralReach, hdigit d rfl]
  · simp [numeralReach, hdigit d rfl, hpoint d rfl]

theorem AtGap.numeralReach_append (h : AtGap rest) (n : Nat) (cs : List Char) :
    numeralReach n (cs ++ rest) = numeralReach n cs := by
  fun_induction numeralReach n cs with
  | case1 n => exact h.numeralReach_eq n
  | case2 n c hc =>
    cases rest with
    | nil => simp [numeralReach, hc]
    | cons d ds =>
      rw [List.singleton_append, numeralReach, if_pos hc]
      exact h.numeralReach_eq (n + 1)
  | case3 n c hc =>
    cases rest with
    | nil => simp [numeralReach, hc]
    | cons d ds =>
      -- a point at the end of the lexeme: no digit follows in the gap
      have hdigit := Text.isDigit_of_isBlank (Text.isBlank_of_isLayout (h d rfl))
      simp [numeralReach, hc, hdigit]
  | case4 n c d cs hc ih =>
    rw [List.cons_append, List.cons_append, numeralReach, if_pos hc]
    exact ih
  | case5 n c d cs hc hd ih =>
    rw [List.cons_append, List.cons_append, numeralReach, if_neg hc, if_pos hd]
    exact ih
  | case6 n c d cs hc hd =>
    rw [List.cons_append, List.cons_append, numeralReach, if_neg hc, if_neg hd]

/-- A lexeme reaches as far before layout as before the end. -/
theorem AtGap.lexemeReach_append (h : AtGap rest) (c : Char) (cs : List Char) :
    lexemeReach c (cs ++ rest) = lexemeReach c cs := by
  -- in each of the three classes, layout is no character that a lexeme goes on with
  have hequals : (cs ++ rest).head? = some '=' ↔ cs.head? = some '=' := by
    cases cs with
    | nil =>
      have hne : rest.head? ≠ some '=' := fun heq => absurd (h '=' heq) (by decide)
      simp [hne]
    | cons d ds => simp
  have hword := h.takeWhile_append
    (fun d hd => Text.isWordContinue_of_isBlank (Text.isBlank_of_isLayout hd)) cs
  simp only [lexemeReach, hequals, h.numeralReach_append, hword]

/-! ## Scanning a lexeme and a gap -/

theorem scanFrom_gap {gap : List Char} (h : IsGap gap) (p : Cursor) (cs : List Char) :
    scanFrom p [] (gap ++ cs) = scanFrom (p.past gap) [] cs := by
  induction gap generalizing p with
  | nil => rfl
  | cons c gap ih =>
    obtain ⟨hc, hgap⟩ := List.forall_mem_cons.1 h
    rw [List.cons_append, scanFrom_layout hc, ih hgap, Cursor.past_cons]

/-- A lexeme with layout or the end behind it is scanned as one token. -/
theorem IsLexeme.scanFrom_append {lexeme : List Char} (h : IsLexeme lexeme) (hrest : AtGap rest)
    (p : Cursor) :
    scanFrom p [] (lexeme ++ rest) =
      .found p lexeme :: scanFrom (p.past lexeme) [] rest := by
  cases lexeme with
  | nil => exact h.elim
  | cons c cs =>
    rw [List.cons_append, scanFrom_lexeme h.1, hrest.lexemeReach_append, h.2]
    simp

/-- A lexeme that stands alone is scanned into one token. -/
theorem scan_of_isLexeme {s : String} (h : IsLexeme s.toList) :
    scan s = [.found .start s.toList] := by
  have hend : AtGap [] := by simp [AtGap]
  simpa [scan] using h.scanFrom_append hend .start

/-- No token is longer than the text. -/
theorem length_le_of_mem_scanFrom {p : Cursor} {cs : List Char} {t : Token}
    (ht : t ∈ scanFrom p [] cs) : t.text.length ≤ cs.length := by
  induction p, cs using scan_induction with
  | nil p => simp at ht
  | layout p c cs hc ih =>
    rw [scanFrom_layout hc] at ht
    exact Nat.le_succ_of_le (ih ht)
  | lexeme p c cs hc ih =>
    rw [scanFrom_lexeme hc, List.mem_cons] at ht
    rcases ht with rfl | ht
    · -- the token found here
      have hlength := List.length_take_le' (lexemeReach c cs) cs
      simp only [Token.found, String.length_ofList, List.length_cons]
      exact Nat.succ_le_succ hlength
    · -- a token found behind it
      have hlength := ih ht
      simp only [List.length_drop, List.length_cons] at hlength ⊢
      omega

theorem kind_found (p : Cursor) (lexeme : List Char) :
    (Token.found p lexeme).kind = .ofLexeme (Token.found p lexeme).text :=
  rfl

/-- A text that is scanned into one token of the same text is a lexeme. -/
theorem isLexeme_of_scan {s : String} {t : Token} (hscan : scan s = [t]) (htext : t.text = s) :
    IsLexeme s.toList ∧ t.kind = .ofLexeme s := by
  have hmem : t ∈ scanFrom .start [] s.toList := by
    rw [← scan, hscan]
    exact List.mem_singleton_self t
  unfold scan at hscan
  cases hs : s.toList with
  | nil => simp [hs] at hmem
  | cons c cs =>
    have hlength : s.length = cs.length + 1 := by rw [← String.length_toList, hs, List.length_cons]
    rw [hs] at hscan hmem
    cases hc : Text.isLayout c with
    | true =>
      -- behind the layout there is no room for a token as long as the whole text
      rw [scanFrom_layout hc] at hmem
      have hshort := length_le_of_mem_scanFrom hmem
      rw [htext] at hshort
      omega
    | false =>
      rw [scanFrom_lexeme hc] at hscan
      obtain ⟨rfl, -⟩ := List.cons.inj hscan
      have hreach := lexemeReach_le c cs
      have hwhole := congrArg String.length htext
      simp only [Token.found, String.length_ofList, List.length_cons, List.length_take] at hwhole
      refine ⟨⟨hc, by omega⟩, ?_⟩
      rw [kind_found, htext]

/-! ## Texts that are written with layout -/

/-- The text writes the lexemes from left to right, each but the last with layout behind it. Behind
the last one layout may come as well. -/
inductive Spaced : List String → List Char → Prop where
  | none : Spaced [] []
  | last (s : String) {gap : List Char} : IsGap gap → Spaced [s] (s.toList ++ gap)
  | more (s : String) {gap cs : List Char} {lexemes : List String} :
      IsGap gap → gap ≠ [] → Spaced lexemes cs → Spaced (s :: lexemes) (s.toList ++ (gap ++ cs))

def Leaf.ofLexeme (s : String) : Leaf :=
  ⟨.ofLexeme s, s⟩

@[simp] theorem Token.leaf_found (p : Cursor) (s : String) :
    (Token.found p s.toList).leaf = .ofLexeme s := by
  simp [Token.leaf, Token.found, Leaf.ofLexeme]

/-- A text that is written as lexemes with layout between them is scanned into these lexemes. -/
theorem Spaced.map_leaf_scanFrom {lexemes : List String} {cs : List Char} (h : Spaced lexemes cs)
    (hlex : ∀ s ∈ lexemes, IsLexeme s.toList) (p : Cursor) :
    (scanFrom p [] cs).map Token.leaf = lexemes.map Leaf.ofLexeme := by
  induction h generalizing p with
  | none => simp
  | @last s gap hgap =>
    -- behind the last lexeme only the gap is left, and it gives no token
    have hblank : scanFrom (p.past s.toList) [] gap = [] := by
      simpa using scanFrom_gap hgap (p.past s.toList) []
    rw [(hlex s List.mem_cons_self).scanFrom_append hgap.atGap, hblank]
    simp
  | @more s gap cs lexemes hgap hne _ ih =>
    obtain ⟨hs, hlex⟩ := List.forall_mem_cons.1 hlex
    rw [hs.scanFrom_append (hgap.atGap_append hne), scanFrom_gap hgap]
    simp [ih hlex]

/-- The source is the lexemes from left to right, with layout between neighbours; there may be
layout before the first and behind the last of them too. -/
def Writes (lexemes : List String) (source : String) : Prop :=
  ∃ lead cs, source.toList = lead ++ cs ∧ IsGap lead ∧ Spaced lexemes cs

theorem Writes.map_leaf_scan {lexemes : List String} {source : String} (h : Writes lexemes source)
    (hlex : ∀ s ∈ lexemes, IsLexeme s.toList) :
    (scan source).map Token.leaf = lexemes.map Leaf.ofLexeme := by
  obtain ⟨lead, cs, hsource, hlead, hcs⟩ := h
  rw [scan, hsource, scanFrom_gap hlead]
  exact hcs.map_leaf_scanFrom hlex _

end WhileSyntax
