import WhileSyntax.Proofs.Derivation
namespace WhileSyntax

/-! # The language

What each rule stands for, as a set of words over the token kinds, with one clause for each
production. The clauses do not mention the table of productions; that both describe the same
language is a theorem below.
-/

/-- The word can be derived from the rule. -/
inductive Derives : Rule → List TokenKind → Prop where
  | program {w : List TokenKind} : Derives .stmtList w → Derives .program (w ++ [.endOfStream])
  | noStatements : Derives .stmtList []
  | statements {u v : List TokenKind} :
      Derives .stmt u → Derives .stmtList v → Derives .stmtList (u ++ v)
  | assignment {w : List TokenKind} :
      Derives .expr w → Derives .stmt (.identifier :: .assign :: w)
  | readStatement : Derives .stmt [.readWord, .identifier]
  | writeStatement {w : List TokenKind} : Derives .expr w → Derives .stmt (.writeWord :: w)
  | conditional {u v : List TokenKind} : Derives .condition u → Derives .stmtList v →
      Derives .stmt (.ifWord :: (u ++ .thenWord :: (v ++ [.fiWord])))
  | whileLoop {u v : List TokenKind} : Derives .condition u → Derives .stmtList v →
      Derives .stmt (.whileWord :: (u ++ .doWord :: (v ++ [.odWord])))
  | condition {u v : List TokenKind} :
      Derives .expr u → Derives .expr v → Derives .condition (u ++ .relation :: v)
  | expr {u v : List TokenKind} :
      Derives .term u → Derives .termTail v → Derives .expr (u ++ v)
  | noTerms : Derives .termTail []
  | terms {u v : List TokenKind} :
      Derives .term u → Derives .termTail v → Derives .termTail (.addOp :: (u ++ v))
  | term {u v : List TokenKind} :
      Derives .factor u → Derives .factorTail v → Derives .term (u ++ v)
  | noFactors : Derives .factorTail []
  | factors {u v : List TokenKind} :
      Derives .factor u → Derives .factorTail v → Derives .factorTail (.multOp :: (u ++ v))
  | parenthesized {w : List TokenKind} :
      Derives .expr w → Derives .factor (.leftParen :: (w ++ [.rightParen]))
  | number : Derives .factor [.number]
  | identifier : Derives .factor [.identifier]

/-- The word begins a program. -/
def BeginsProgram (w : List TokenKind) : Prop :=
  ∃ v, Derives .program (w ++ v)

/-! ## Agreement with the table of productions -/

/-- What symbols yield, as a word over the kinds. -/
def YieldsWord (xs : List Symbol) (w : List TokenKind) : Prop :=
  ∃ ls, Yields xs ls ∧ ls.map Leaf.kind = w

namespace YieldsWord

variable {xs ys : List Symbol} {u v w : List TokenKind}

theorem nil : YieldsWord [] [] :=
  ⟨[], Yields.nil_iff.2 rfl, rfl⟩

theorem terminal (k : TokenKind) (h : YieldsWord xs w) :
    YieldsWord (.terminal k :: xs) (k :: w) := by
  obtain ⟨ls, h, rfl⟩ := h
  exact ⟨⟨k, ""⟩ :: ls, Yields.terminal_cons_iff.2 ⟨⟨k, ""⟩, ls, rfl, rfl, h⟩, rfl⟩

theorem append (h : YieldsWord xs u) (k : YieldsWord ys v) : YieldsWord (xs ++ ys) (u ++ v) := by
  obtain ⟨ls, h, rfl⟩ := h
  obtain ⟨ms, k, rfl⟩ := k
  exact ⟨ls ++ ms, h.append k, List.map_append⟩

theorem of_production {r : Rule} (hr : xs ∈ r.productions) (h : YieldsWord xs w) :
    YieldsWord [.rule r] w := by
  obtain ⟨ls, h, rfl⟩ := h
  exact ⟨ls, h.of_production hr, rfl⟩

/-- Leaves of the kinds of the word are yielded, whatever their lexemes. -/
theorem yields {ls : List Leaf} (h : YieldsWord xs (ls.map Leaf.kind)) : Yields xs ls := by
  obtain ⟨ms, h, hk⟩ := h
  exact h.relabel hk.symm

end YieldsWord

/-- A word of the language is yielded by its rule. -/
theorem Derives.yieldsWord {r : Rule} {w : List TokenKind} (h : Derives r w) :
    YieldsWord [.rule r] w := by
  induction h with
  | program _ ih =>
    exact .of_production (by decide) (ih.append (.terminal .endOfStream .nil))
  | noStatements => exact .of_production (by decide) .nil
  | statements _ _ ihu ihv => exact .of_production (by decide) (ihu.append ihv)
  | assignment _ ih => exact .of_production (by decide) (.terminal _ (.terminal _ ih))
  | readStatement => exact .of_production (by decide) (.terminal _ (.terminal _ .nil))
  | writeStatement _ ih => exact .of_production (by decide) (.terminal _ ih)
  | conditional _ _ ihu ihv =>
    -- the statements end at the closing word
    have hlist := ihv.append (.terminal .fiWord .nil)
    exact .of_production (by decide) (.terminal .ifWord (ihu.append (.terminal .thenWord hlist)))
  | whileLoop _ _ ihu ihv =>
    have hlist := ihv.append (.terminal .odWord .nil)
    exact .of_production (by decide) (.terminal .whileWord (ihu.append (.terminal .doWord hlist)))
  | condition _ _ ihu ihv => exact .of_production (by decide) (ihu.append (.terminal _ ihv))
  | expr _ _ ihu ihv => exact .of_production (by decide) (ihu.append ihv)
  | noTerms => exact .of_production (by decide) .nil
  | terms _ _ ihu ihv => exact .of_production (by decide) (.terminal _ (ihu.append ihv))
  | term _ _ ihu ihv => exact .of_production (by decide) (ihu.append ihv)
  | noFactors => exact .of_production (by decide) .nil
  | factors _ _ ihu ihv => exact .of_production (by decide) (.terminal _ (ihu.append ihv))
  | parenthesized _ ih =>
    exact .of_production (by decide) (.terminal .leftParen (ih.append (.terminal .rightParen .nil)))
  | number => exact .of_production (by decide) (.terminal _ .nil)
  | identifier => exact .of_production (by decide) (.terminal _ .nil)

/-- The word can be derived from the symbols, one after the other. -/
def DerivesAll : List Symbol → List TokenKind → Prop
  | [], w => w = []
  | .terminal k :: xs, w => ∃ v, w = k :: v ∧ DerivesAll xs v
  | .rule r :: xs, w => ∃ u v, w = u ++ v ∧ Derives r u ∧ DerivesAll xs v

/-- Each production of the table is a clause of the language. -/
theorem DerivesAll.of_production {r : Rule} {rhs : List Symbol} {w : List TokenKind}
    (hr : rhs ∈ r.productions) (h : DerivesAll rhs w) : Derives r w := by
  cases r with
  | program =>
    obtain rfl := List.mem_singleton.1 hr
    -- each production takes the word apart as its constructor puts it together
    obtain ⟨u, _, rfl, hu, _, rfl, rfl⟩ := h
    exact .program hu
  | stmtList =>
    simp only [Rule.productions, List.mem_cons, List.not_mem_nil, or_false] at hr
    rcases hr with rfl | rfl
    · obtain ⟨u, _, rfl, hu, v, _, rfl, hv, rfl⟩ := h
      simpa using Derives.statements hu hv
    · obtain rfl := h
      exact .noStatements
  | stmt =>
    simp only [Rule.productions, List.mem_cons, List.not_mem_nil, or_false] at hr
    rcases hr with rfl | rfl | rfl | rfl | rfl
    · obtain ⟨_, rfl, _, rfl, w, _, rfl, hw, rfl⟩ := h
      simpa using Derives.assignment hw
    · obtain ⟨_, rfl, _, rfl, rfl⟩ := h
      exact .readStatement
    · obtain ⟨_, rfl, w, _, rfl, hw, rfl⟩ := h
      simpa using Derives.writeStatement hw
    · obtain ⟨_, rfl, u, _, rfl, hu, _, rfl, v, _, rfl, hv, _, rfl, rfl⟩ := h
      exact .conditional hu hv
    · obtain ⟨_, rfl, u, _, rfl, hu, _, rfl, v, _, rfl, hv, _, rfl, rfl⟩ := h
      exact .whileLoop hu hv
  | expr =>
    obtain rfl := List.mem_singleton.1 hr
    obtain ⟨u, _, rfl, hu, v, _, rfl, hv, rfl⟩ := h
    simpa using Derives.expr hu hv
  | termTail =>
    simp only [Rule.productions, List.mem_cons, List.not_mem_nil, or_false] at hr
    rcases hr with rfl | rfl
    · obtain ⟨_, rfl, u, _, rfl, hu, v, _, rfl, hv, rfl⟩ := h
      simpa using Derives.terms hu hv
    · obtain rfl := h
      exact .noTerms
  | term =>
    obtain rfl := List.mem_singleton.1 hr
    obtain ⟨u, _, rfl, hu, v, _, rfl, hv, rfl⟩ := h
    simpa using Derives.term hu hv
  | factorTail =>
    simp only [Rule.productions, List.mem_cons, List.not_mem_nil, or_false] at hr
    rcases hr with rfl | rfl
    · obtain ⟨_, rfl, u, _, rfl, hu, v, _, rfl, hv, rfl⟩ := h
      simpa using Derives.factors hu hv
    · obtain rfl := h
      exact .noFactors
  | factor =>
    simp only [Rule.productions, List.mem_cons, List.not_mem_nil, or_false] at hr
    rcases hr with rfl | rfl | rfl
    · obtain ⟨_, rfl, w, _, rfl, hw, _, rfl, rfl⟩ := h
      exact .parenthesized hw
    · obtain ⟨_, rfl, rfl⟩ := h
      exact .number
    · obtain ⟨_, rfl, rfl⟩ := h
      exact .identifier
  | condition =>
    obtain rfl := List.mem_singleton.1 hr
    obtain ⟨u, _, rfl, hu, _, rfl, v, _, rfl, hv, rfl⟩ := h
    simpa using Derives.condition hu hv

/-- The leaves of a derivation spell a word that can be derived from its symbols. -/
theorem Derivation.derivesAll {xs : List Symbol} (d : Derivation xs) :
    DerivesAll xs (d.leaves.map Leaf.kind) := by
  induction d with
  | nil => rfl
  | terminal leaf rest ih => exact ⟨_, rfl, ih⟩
  | rule r h below rest ihb ihr =>
    exact ⟨_, _, List.map_append, ihb.of_production h, ihr⟩

/-- The table of productions and the clauses describe the same language. -/
theorem derives_iff_yields {r : Rule} {ls : List Leaf} :
    Derives r (ls.map Leaf.kind) ↔ Yields [.rule r] ls := by
  constructor
  · intro h
    exact h.yieldsWord.yields
  · rintro ⟨d, rfl⟩
    obtain ⟨u, _, h, hu, rfl⟩ := d.derivesAll
    simpa [h] using hu

/-! ## The last token of a program -/

/-- Only a program has the end of the stream in it. -/
theorem Derives.endOfStream_not_mem {r : Rule} {w : List TokenKind} (h : Derives r w)
    (hr : r ≠ .program) : .endOfStream ∉ w := by
  induction h <;> simp_all

/-- A program is a list of statements with the end of the stream behind it. -/
theorem derives_program_iff {w : List TokenKind} :
    Derives .program w ↔ ∃ v, w = v ++ [.endOfStream] ∧ Derives .stmtList v := by
  constructor
  · intro h
    cases h with
    | program h => exact ⟨_, rfl, h⟩
  · rintro ⟨v, rfl, h⟩
    exact .program h

/-- The last leaf of a program, and no other, is the end of the stream. -/
theorem Derivation.leaves_of_program (d : Derivation [.rule .program]) :
    ∃ ls l, d.leaves = ls ++ [l] ∧ l.kind = .endOfStream ∧ ∀ m ∈ ls, m.kind ≠ .endOfStream := by
  obtain ⟨w, hw, hlist⟩ := derives_program_iff.1 (derives_iff_yields.2 ⟨d, rfl⟩)
  obtain ⟨ls, ms, hleaves, rfl, hms⟩ := List.map_eq_append_iff.1 hw
  obtain ⟨l, rfl, hl⟩ := List.map_eq_singleton_iff.1 hms
  refine ⟨ls, l, hleaves, hl, ?_⟩
  intro m hm hkind
  exact hlist.endOfStream_not_mem (by decide) (hkind ▸ List.mem_map_of_mem hm)

/-- Before the last token of the beginning of a program there is no end of the stream. -/
theorem endOfStream_not_mem_of_beginsProgram {u : List TokenKind} {k : TokenKind}
    (h : BeginsProgram (u ++ [k])) : .endOfStream ∉ u := by
  obtain ⟨v, h⟩ := h
  obtain ⟨w, hw, hlist⟩ := derives_program_iff.1 h
  rw [List.append_assoc] at hw
  -- the word is followed by one more kind, so it ends before the last of the program
  have hprefix : u <+: w ++ [.endOfStream] := hw ▸ List.prefix_append u ([k] ++ v)
  have hlength : u.length ≤ w.length := by
    have := congrArg List.length hw
    simp only [List.length_append, List.length_cons, List.length_nil] at this
    omega
  have huw : u <+: w := List.prefix_of_prefix_length_le hprefix (List.prefix_append w _) hlength
  intro hmem
  exact hlist.endOfStream_not_mem (by decide) (huw.subset hmem)

/-! ## Something can always be derived -/

/-- Every rule stands for at least one word. -/
theorem exists_derives (r : Rule) : ∃ w, Derives r w := by
  have hterm := Derives.term .identifier .noFactors
  have hexpr := Derives.expr hterm .noTerms
  cases r with
  | program => exact ⟨_, .program .noStatements⟩
  | stmtList => exact ⟨_, .noStatements⟩
  | stmt => exact ⟨_, .readStatement⟩
  | expr => exact ⟨_, hexpr⟩
  | termTail => exact ⟨_, .noTerms⟩
  | term => exact ⟨_, hterm⟩
  | factorTail => exact ⟨_, .noFactors⟩
  | factor => exact ⟨_, .identifier⟩
  | condition => exact ⟨_, .condition hexpr hexpr⟩

/-- Something can be derived from any symbols. -/
theorem exists_yields (xs : List Symbol) : ∃ ls, Yields xs ls := by
  induction xs with
  | nil => exact ⟨[], Yields.nil_iff.2 rfl⟩
  | cons x xs ih =>
    obtain ⟨ls, h⟩ := ih
    cases x with
    | terminal k => exact ⟨_, Yields.terminal_cons_iff.2 ⟨⟨k, ""⟩, ls, rfl, rfl, h⟩⟩
    | rule r =>
      obtain ⟨w, hw⟩ := exists_derives r
      obtain ⟨ms, hm, _⟩ := hw.yieldsWord
      exact ⟨ms ++ ls, hm.append h⟩

end WhileSyntax
