import WhileSyntax.Proofs.Notations
import WhileSyntax.Toml.Document
namespace WhileSyntax.Toml

/-! # Entries read back

An entry is a line with a key and a value, which is a text or a number. What a document of entries
is cut into, which statements it makes and what they add to the table are each told entry by entry,
whatever came before. So the document is read as the table of its keys and values, in their order
(`read?_document`).
-/

open Text (isDigit_of_mem_toDigits notMem_toDigits numberOf_toDigits)

/-! ## Decimal numbers -/

/-- Digits without underscores among them. -/
theorem ungroup_digits {cs : List Char} (hne : cs ≠ []) (hcs : ∀ c ∈ cs, c.isDigit = true) :
    ungroup Char.isDigit cs = some cs := by
  induction cs with
  | nil => exact absurd rfl hne
  | cons c cs ih =>
    rw [List.forall_mem_cons] at hcs
    cases cs with
    | nil => simp [ungroup, hcs.1]
    | cons d cs =>
      -- an underscore is no digit, so none is dropped
      have hd : d ≠ '_' := by
        rintro rfl
        exact absurd (hcs.2 '_' List.mem_cons_self) (by decide)
      simp [ungroup, hcs.1, hd, ih (List.cons_ne_nil d cs) hcs.2]

theorem digitChar_eq_zero : ∀ n < 10, Nat.digitChar n = '0' → n = 0 := by
  decide

/-- Only zero is written with a zero in front. -/
theorem eq_zero_of_head?_toDigits {n : Nat} (h : (Nat.toDigits 10 n).head? = some '0') : n = 0 := by
  induction n using Nat.strongRecOn with
  | ind n ih =>
    by_cases hn : n < 10
    · rw [Nat.toDigits_of_lt_base hn] at h
      exact digitChar_eq_zero n hn (Option.some.inj h)
    · rw [Nat.toDigits_of_base_le (by decide) (Nat.le_of_not_lt hn),
        List.head?_append_of_ne_nil _ Nat.toDigits_ne_nil] at h
      have hzero := ih (n / 10) (by omega) h
      omega

theorem isCanonical_toDigits (n : Nat) : isCanonical (Nat.toDigits 10 n) = true := by
  rw [isCanonical, Bool.or_eq_true, decide_eq_true_eq, decide_eq_true_eq]
  by_cases hhead : (Nat.toDigits 10 n).head? = some '0'
  · rw [eq_zero_of_head?_toDigits hhead]
    exact .inl rfl
  · exact .inr hhead

theorem wholeDigits?_toDigits (n : Nat) :
    wholeDigits? (Nat.toDigits 10 n) = some (Nat.toDigits 10 n) := by
  rw [wholeDigits?, ungroup_digits Nat.toDigits_ne_nil (fun c => isDigit_of_mem_toDigits),
    Option.filter_some, if_pos (isCanonical_toDigits n)]

theorem unboundedInteger?_toDigits (n : Nat) :
    unboundedInteger? (Nat.toDigits 10 n) = some (Int.ofNat n) := by
  -- no digit is a sign or tells another base
  have hsign : splitSign (Nat.toDigits 10 n) = (false, Nat.toDigits 10 n) := by
    unfold splitSign
    split
    · next heq => exact absurd (by rw [heq]; simp) (notMem_toDigits (n := n) (c := '-') rfl)
    · next heq => exact absurd (by rw [heq]; simp) (notMem_toDigits (n := n) (c := '+') rfl)
    · rfl
  unfold unboundedInteger?
  split
  · next heq => exact absurd (by rw [heq]; simp) (notMem_toDigits (n := n) (c := 'x') rfl)
  · next heq => exact absurd (by rw [heq]; simp) (notMem_toDigits (n := n) (c := 'o') rfl)
  · next heq => exact absurd (by rw [heq]; simp) (notMem_toDigits (n := n) (c := 'b') rfl)
  · simp only [hsign, wholeDigits?_toDigits, Option.map_some, numberOf_toDigits]
    rfl

/-- A number that is not too large is read as it was written. -/
theorem scalar?_toDigits {n : Nat} (hn : Int.ofNat n < Int.pow 2 128) :
    scalar? (Nat.toDigits 10 n) = some (.integer (Int.ofNat n)) := by
  -- a digit in front rules out the names of the booleans
  have hne : ∀ c cs, c.isDigit = false → Nat.toDigits 10 n ≠ c :: cs := by
    intro c cs hc heq
    exact absurd (by rw [heq]; simp) (notMem_toDigits (n := n) hc)
  have hlow : -Int.pow 2 127 ≤ Int.ofNat n := Int.le_trans (by decide) (Int.natCast_nonneg n)
  have hinteger : integer? (Nat.toDigits 10 n) = some (Int.ofNat n) := by
    rw [integer?, unboundedInteger?_toDigits, Option.filter_some, if_pos]
    rw [Bool.and_eq_true, decide_eq_true_eq, decide_eq_true_eq]
    exact ⟨hlow, hn⟩
  rw [scalar?, if_neg (hne _ _ rfl), if_neg (hne _ _ rfl), hinteger]

/-! ## Entries -/

/-- What an entry gives to its key: a text, or a number that is not too large. -/
inductive Datum where
  | text (s : String)
  | number (n : Nat) (small : Int.ofNat n < Int.pow 2 128)

namespace Datum

def written : Datum → List Char
  | text s => (writeText s).toList
  | number n _ => Nat.toDigits 10 n

def lexeme : Datum → Lexeme
  | text s => .text s (Notation.ofText s.toList).inLines
  | number n _ => .run (String.ofList (Nat.toDigits 10 n))

def value : Datum → Value
  | text s => .string s
  | number n _ => .integer (Int.ofNat n)

end Datum

/-- A line with a key that needs no quotes, and a value. -/
structure Entry where
  key : String
  datum : Datum
  key_ne : key.toList ≠ []
  bare : ∀ c ∈ key.toList, isKeyChar c = true

namespace Entry

def line (e : Entry) : List Char :=
  e.key.toList ++ ' ' :: '=' :: ' ' :: (e.datum.written ++ ['\n'])

def lexemes (e : Entry) : List Lexeme :=
  [.run e.key, .blank " ", .equals, .blank " ", e.datum.lexeme, .newline]

def statement (e : Entry) : Statement :=
  .entry ⟨[], e.key⟩ e.datum.value

end Entry

/-! ## Lexemes -/

section

variable {found : List Lexeme} {c : Char} {cs word : List Char} {e : Entry} {es : List Entry}

theorem isRunChar_of_isKeyChar (h : isKeyChar c = true) : isRunChar c = true := by
  have hne : ∀ d, isKeyChar d = false → c ≠ d := by
    rintro d hd rfl
    rw [hd] at h
    cases h
  simp [isRunChar, isGap, punctuation?, hne ' ' rfl, hne '\t' rfl, hne '\n' rfl, hne '\r' rfl,
    hne '#' rfl, hne '"' rfl, hne '\'' rfl, hne '.' rfl, hne '=' rfl, hne ',' rfl, hne '[' rfl,
    hne ']' rfl, hne '\x7b' rfl, hne '\x7d' rfl]

theorem isKeyChar_of_isDigit (h : c.isDigit = true) : isKeyChar c = true := by
  simp [isKeyChar, Char.isAlphanum, h]

theorem takeWhile_dropWhile {p : Char → Bool} (hcs : ∀ d, cs.head? = some d → p d = false) :
    cs.takeWhile p = [] ∧ cs.dropWhile p = cs := by
  cases cs with
  | nil => exact ⟨rfl, rfl⟩
  | cons d cs => simp [hcs d rfl]

theorem lexFrom_space (hcs : ∀ d, cs.head? = some d → isGap d = false) :
    lexFrom found (' ' :: cs) = lexFrom (.blank " " :: found) cs := by
  rw [lexFrom, if_pos (by decide), (takeWhile_dropWhile hcs).1, (takeWhile_dropWhile hcs).2]

theorem lexFrom_newline : lexFrom found ('\n' :: cs) = lexFrom (.newline :: found) cs := by
  rw [lexFrom, if_neg (by decide), if_pos rfl]

theorem lexFrom_equals : lexFrom found ('=' :: cs) = lexFrom (.equals :: found) cs := by
  rw [lexFrom]
  rfl

/-- Characters that belong together are taken together, up to the next one that does not. -/
theorem lexFrom_run (hne : word ≠ []) (hword : ∀ d ∈ word, isRunChar d = true)
    (hcs : ∀ d, cs.head? = some d → isRunChar d = false) :
    lexFrom found (word ++ cs) = lexFrom (.run (String.ofList word) :: found) cs := by
  cases word with
  | nil => exact absurd rfl hne
  | cons c word =>
    rw [List.forall_mem_cons] at hword
    have htake : (word ++ cs).takeWhile isRunChar = word := by
      rw [List.takeWhile_append_of_pos hword.2, (takeWhile_dropWhile hcs).1, List.append_nil]
    have hdrop : (word ++ cs).dropWhile isRunChar = cs := by
      rw [List.dropWhile_append_of_pos hword.2, (takeWhile_dropWhile hcs).2]
    -- the first character of a run is neither blank nor punctuation, and opens nothing
    have hc := hword.1
    simp only [isRunChar, Bool.and_eq_true, Bool.not_eq_true', decide_eq_true_eq,
      Option.isNone_iff_eq_none] at hc
    rcases hc with ⟨⟨⟨⟨⟨⟨hgap, hnewline⟩, hreturn⟩, hhash⟩, hquote⟩, hapostrophe⟩, hpunctuation⟩
    rw [List.cons_append, lexFrom, hgap, if_neg Bool.false_ne_true, if_neg hnewline,
      if_neg hreturn, if_neg hhash, if_neg (by simp [hquote, hapostrophe]), hpunctuation]
    simp only [htake, hdrop]

theorem Notation.exists_write_eq_cons (cs : List Char) (form : Notation) :
    ∃ d ds, form.write cs = d :: ds ∧ (d = '"' ∨ d = '\'') := by
  cases form with
  | basic => exact ⟨_, _, rfl, .inl rfl⟩
  | literal => exact ⟨_, _, rfl, .inr rfl⟩
  | basicLines => exact ⟨_, _, rfl, .inl rfl⟩
  | literalLines => exact ⟨_, _, rfl, .inr rfl⟩

/-- A text is taken as what was written. -/
theorem lexFrom_text (s : String) (hquote : cs.head? ≠ some '"')
    (hapostrophe : cs.head? ≠ some '\'') :
    lexFrom found ((writeText s).toList ++ cs) =
      lexFrom (.text s (Notation.ofText s.toList).inLines :: found) cs := by
  have hread := text?_write (Notation.canHold_ofText s.toList) hquote hapostrophe
  rw [writeText, String.toList_ofList]
  rcases Notation.exists_write_eq_cons s.toList (Notation.ofText s.toList) with ⟨d, ds, hd, hopen⟩
  rw [hd, List.cons_append] at hread ⊢
  -- the delimiter is no layout and begins no comment
  have hother : isGap d = false ∧ d ≠ '\n' ∧ d ≠ '\r' ∧ d ≠ '#' := by
    rcases hopen with rfl | rfl
    · decide
    · decide
  rw [lexFrom, hother.1, if_neg Bool.false_ne_true, if_neg hother.2.1, if_neg hother.2.2.1,
    if_neg hother.2.2.2, if_pos (by simpa using hopen)]
  split
  · next hnone => cases hnone.symm.trans hread
  · next hsome =>
    cases hsome.symm.trans hread
    rw [String.ofList_toList]

theorem lexFrom_datum (d : Datum) :
    lexFrom found (d.written ++ '\n' :: cs) = lexFrom (d.lexeme :: found) ('\n' :: cs) := by
  cases d with
  | text s => exact lexFrom_text s (by simp) (by simp)
  | number n =>
    -- digits are a run, which the newline ends
    refine lexFrom_run Nat.toDigits_ne_nil ?_ ?_
    · intro d hd
      exact isRunChar_of_isKeyChar (isKeyChar_of_isDigit (isDigit_of_mem_toDigits hd))
    · rintro d hd
      cases hd
      rfl

theorem Datum.isGap_head? (d : Datum) (h : (d.written ++ cs).head? = some c) : isGap c = false := by
  cases d with
  | text s =>
    -- a written text begins with a delimiter, and a number with a digit
    rcases Notation.exists_write_eq_cons s.toList (Notation.ofText s.toList) with ⟨d, ds, hd, hopen⟩
    rw [written, writeText, String.toList_ofList, hd] at h
    cases h
    rcases hopen with rfl | rfl
    · rfl
    · rfl
  | number n =>
    rw [written, List.head?_append_of_ne_nil _ Nat.toDigits_ne_nil] at h
    have hdigit : c.isDigit = true := isDigit_of_mem_toDigits (List.mem_of_head? h)
    have hrun := isRunChar_of_isKeyChar (isKeyChar_of_isDigit hdigit)
    simp only [isRunChar, Bool.and_eq_true, Bool.not_eq_true'] at hrun
    exact hrun.1.1.1.1.1.1

theorem lexFrom_line (e : Entry) :
    lexFrom found (e.line ++ cs) = lexFrom (e.lexemes.reverse ++ found) cs := by
  have hline : e.line ++ cs =
      e.key.toList ++ ' ' :: '=' :: ' ' :: (e.datum.written ++ '\n' :: cs) := by
    simp [Entry.line]
  have hkey : ∀ d ∈ e.key.toList, isRunChar d = true := fun d hd =>
    isRunChar_of_isKeyChar (e.bare d hd)
  rw [hline, lexFrom_run e.key_ne hkey (by simp; decide), lexFrom_space (by simp; decide),
    lexFrom_equals, lexFrom_space (fun d => e.datum.isGap_head?), lexFrom_datum, lexFrom_newline,
    String.ofList_toList]
  rfl

theorem lexFrom_entries (es : List Entry) :
    lexFrom found (es.flatMap Entry.line) = some (found.reverse ++ es.flatMap Entry.lexemes) := by
  induction es generalizing found with
  | nil => simp [lexFrom]
  | cons e es ih =>
    rw [List.flatMap_cons, lexFrom_line, ih, List.flatMap_cons, List.reverse_append,
      List.reverse_reverse, List.append_assoc]

theorem dropMark_entries (es : List Entry) :
    dropMark (es.flatMap Entry.line) = es.flatMap Entry.line := by
  unfold dropMark
  split
  · next heq =>
    cases es with
    | nil => cases heq
    | cons e es =>
      -- the first character belongs to a key, so it is no byte order mark
      have hhead := congrArg List.head? heq
      rw [List.flatMap_cons, Entry.line, List.append_assoc,
        List.head?_append_of_ne_nil _ e.key_ne] at hhead
      exact absurd (e.bare _ (List.mem_of_head? hhead)) (by decide)
  · rfl

/-- The entries are cut into their lexemes. -/
theorem lex_entries (es : List Entry) :
    lex (String.ofList (es.flatMap Entry.line)) = some (es.flatMap Entry.lexemes) := by
  rw [lex, String.toList_ofList, dropMark_entries, lexFrom_entries]
  rfl

end

/-! ## Statements -/

section

variable {ts : List Lexeme} {read : List Statement}

theorem key?_bare (e : Entry) :
    key? (.run e.key :: .blank " " :: .equals :: ts) = some (⟨[], e.key⟩, .equals :: ts) := by
  have hpart : keyPart? (.run e.key) = some e.key := by
    rw [keyPart?, if_pos (List.all_eq_true.2 e.bare)]
  simp [key?, keyAt, keyAfter, hpart, nestingLimit]

theorem value?_datum (fuel depth : Nat) (d : Datum) :
    value? fuel depth (d.lexeme :: .newline :: ts) = some (d.value, .newline :: ts) := by
  cases d with
  | text s => simp [Datum.lexeme, Datum.value, value?]
  | number n hn =>
    simp [Datum.lexeme, Datum.value, value?, unquoted?, joinRuns, scalar?_toDigits hn]

theorem skipBlanks_datum (d : Datum) :
    skipBlanks (.blank " " :: d.lexeme :: ts) = d.lexeme :: ts := by
  cases d <;> rfl

theorem statement?_entry (e : Entry) :
    statement? (e.lexemes ++ ts) = some (e.statement, .newline :: ts) := by
  show statement? (.run e.key :: .blank " " :: .equals :: .blank " " :: e.datum.lexeme ::
    .newline :: ts) = _
  simp only [statement?, key?_bare, skipBlanks_datum, value?_datum, Option.map_some]
  rfl

theorem statementsFrom_entry (fuel : Nat) (e : Entry) :
    statementsFrom (fuel + 1) read (e.lexemes ++ ts) =
      statementsFrom fuel (e.statement :: read) ts := by
  have hread : statement? (e.lexemes ++ ts) = some (e.statement, .newline :: ts) :=
    statement?_entry e
  -- the line begins with a run, so there is no layout to skip
  rw [Entry.lexemes, List.cons_append] at hread ⊢
  rw [statementsFrom]
  simp only [skipLayout, hread, skipBlanks]

theorem statementsFrom_entries (es : List Entry) {fuel : Nat} (hfuel : es.length ≤ fuel) :
    statementsFrom fuel read (es.flatMap Entry.lexemes) =
      some (read.reverse ++ es.map Entry.statement) := by
  induction es generalizing fuel read with
  | nil => simp [statementsFrom, skipLayout]
  | cons e es ih =>
    -- each statement takes one unit of fuel
    cases fuel with
    | zero => cases hfuel
    | succ fuel =>
      rw [List.flatMap_cons, statementsFrom_entry, ih (Nat.le_of_succ_le_succ hfuel),
        List.reverse_cons, List.append_assoc]
      rfl

theorem length_le_length_lexemes (es : List Entry) :
    es.length ≤ (es.flatMap Entry.lexemes).length := by
  induction es with
  | nil => exact Nat.le_refl 0
  | cons e es ih =>
    rw [List.flatMap_cons, List.length_append, List.length_cons]
    have hline : e.lexemes.length = 6 := rfl
    omega

/-- Each entry is a statement. -/
theorem statements?_entries (es : List Entry) :
    statements? (es.flatMap Entry.lexemes) = some (es.map Entry.statement) :=
  statementsFrom_entries es (length_le_length_lexemes es)

end

/-! ## Tables -/

/-- A key that stands for nothing yet gets what is said of it behind the other keys. -/
theorem Nodes.alter_of_notMem {key : String} {nodes : Nodes} (h : key ∉ nodes.map Prod.fst)
    (f : Option Node → Option Node) :
    alter key f nodes = (f none).map fun n => nodes ++ [(key, n)] := by
  induction nodes with
  | nil => rfl
  | cons entry nodes ih =>
    rw [List.map_cons, List.mem_cons, not_or] at h
    rw [alter, if_neg (Ne.symm h.1), ih h.2, Option.map_map]
    rfl

def Entry.node (e : Entry) : String × Node :=
  (e.key, .value e.datum.value)

theorem add_entry {nodes : Nodes} (e : Entry) (h : e.key ∉ nodes.map Prod.fst) :
    Progress.add ⟨nodes, []⟩ e.statement = some ⟨nodes ++ [e.node], []⟩ := by
  show (Nodes.alter e.key _ nodes).map _ = _
  rw [Nodes.alter_of_notMem h]
  rfl

theorem foldlM_add_entries {nodes : Nodes} {es : List Entry}
    (h : (nodes.map Prod.fst ++ es.map Entry.key).Nodup) :
    (es.map Entry.statement).foldlM Progress.add ⟨nodes, []⟩ =
      some ⟨nodes ++ es.map Entry.node, []⟩ := by
  induction es generalizing nodes with
  | nil => simp
  | cons e es ih =>
    -- no entry before has this key, so it is added at the end
    have hnew : e.key ∉ nodes.map Prod.fst := by
      intro hmem
      exact (List.nodup_append.1 h).2.2 _ hmem e.key List.mem_cons_self rfl
    have hrest : ((nodes ++ [e.node]).map Prod.fst ++ es.map Entry.key).Nodup := by
      rwa [List.map_append, List.append_assoc]
    rw [List.map_cons, List.foldlM_cons, add_entry e hnew, Option.bind_eq_bind, Option.bind_some,
      ih hrest, List.append_assoc]
    rfl

theorem toTable_entries (es : List Entry) :
    Node.toTable (es.map Entry.node) = es.map fun e => (e.key, e.datum.value) := by
  induction es with
  | nil => rfl
  | cons e es ih =>
    rw [List.map_cons, List.map_cons, ← ih]
    rfl

/-- A document of entries with different keys is the table of its keys and values. -/
theorem read?_document {es : List Entry} (h : (es.map Entry.key).Nodup) :
    read? (String.ofList (es.flatMap Entry.line)) =
      some (es.map fun e => (e.key, e.datum.value)) := by
  have hfold : (es.map Entry.statement).foldlM Progress.add ⟨[], []⟩ =
      some ⟨es.map Entry.node, []⟩ := foldlM_add_entries h
  simp only [read?, lex_entries, statements?_entries, hfold, toTable_entries, Option.bind_eq_bind,
    Option.bind_some]

end WhileSyntax.Toml
