import WhileSyntax.Proofs.Growth
import WhileSyntax.Proofs.Spacing
namespace WhileSyntax

/-! # Writing a derivation and parsing it

A source that writes the lexemes of a program's derivation is parsed into that derivation, whatever
layout it is written with.
-/

/-- The leaf can be written: the end of the stream has no lexeme, and any other lexeme is scanned,
when it stands alone, into one token of the leaf's kind that covers it. -/
def Leaf.IsWritable (l : Leaf) : Prop :=
  if l.kind = .endOfStream then l.text = ""
  else ∃ t, scan l.text = [t] ∧ t.kind = l.kind ∧ t.text = l.text

/-- The lexemes of a derivation, from left to right; the end of the stream is none. -/
def Derivation.words {xs : List Symbol} (d : Derivation xs) : List String :=
  (d.leaves.filter (·.kind ≠ .endOfStream)).map Leaf.text

/-- A leaf with a lexeme that can be written is what its lexeme is scanned into. -/
theorem Leaf.IsWritable.eq_ofLexeme {l : Leaf} (h : l.IsWritable) (hl : l.kind ≠ .endOfStream) :
    IsLexeme l.text.toList ∧ Leaf.ofLexeme l.text = l := by
  rw [IsWritable, if_neg hl] at h
  obtain ⟨t, hscan, hkind, htext⟩ := h
  obtain ⟨hlexeme, hof⟩ := isLexeme_of_scan hscan htext
  refine ⟨hlexeme, ?_⟩
  cases l with
  | mk kind text => exact congrArg (Leaf.mk · text) (hof.symm.trans hkind)

theorem Leaf.IsWritable.eq_endLeaf {l : Leaf} (h : l.IsWritable) (hl : l.kind = .endOfStream) :
    l = TokenStream.endLeaf := by
  rw [IsWritable, if_pos hl] at h
  cases l with
  | mk kind text => rw [TokenStream.endLeaf, ← hl, ← h]

/-- A source that writes the lexemes of a program's derivation shows its leaves. -/
theorem Derivation.upcoming_eq_leaves (d : Derivation [.rule .program]) {source : String}
    (hd : ∀ l ∈ d.leaves, l.IsWritable) (hsource : Writes d.words source) :
    (TokenStream.ofSource source).upcoming d.leaves.length = d.leaves := by
  obtain ⟨ls, l, hleaves, hl, hls⟩ := d.leaves_of_program
  have hwords : d.words = ls.map Leaf.text := by
    -- only the last leaf writes no word
    have hfilter : ls.filter (·.kind ≠ .endOfStream) = ls := by simpa using hls
    rw [words, hleaves, List.filter_append, hfilter]
    simp [hl]
  rw [hleaves, List.forall_mem_append] at hd
  have hlexemes : ∀ m ∈ ls, IsLexeme m.text.toList ∧ Leaf.ofLexeme m.text = m :=
    fun m hm => (hd.1 m hm).eq_ofLexeme (hls m hm)
  -- what is written is scanned back, one lexeme a leaf
  have hscan : (scan source).map Token.leaf = ls := by
    rw [hsource.map_leaf_scan (by simpa [hwords] using fun m hm => (hlexemes m hm).1), hwords,
      List.map_map]
    exact (List.map_congr_left fun m hm => (hlexemes m hm).2).trans (List.map_id ls)
  have hlength : (scan source).length = ls.length := by rw [← hscan, List.length_map]
  -- the last leaf is the one that a stream shows behind its tokens
  have hend : l = TokenStream.endLeaf := (hd.2 l (List.mem_singleton_self l)).eq_endLeaf hl
  have hremaining : (TokenStream.ofSource source).remaining = scan source := rfl
  rw [TokenStream.upcoming_eq, hremaining, hleaves, hend, List.length_append,
    List.take_of_length_le (by simp [hlength]), hscan, hlength]
  simp

/-- Parsing undoes writing: a source that writes the lexemes of a program's derivation, with layout
between them, is parsed without an error into the trees of that derivation. -/
theorem parse_of_writes (d : Derivation [.rule .program]) {source : String}
    (hd : ∀ l ∈ d.leaves, l.IsWritable) (hsource : Writes d.words source) :
    (parse source).error = none ∧ (parse source).tree = ⟨defaultTitle, d.trees⟩ :=
  d.parseTitled_eq defaultTitle (d.upcoming_eq_leaves hd hsource)

/-- The program `read x`, with layout of several kinds around its lexemes. -/
theorem parse_of_writes_readX :
    (∀ l ∈ (Derivation.readX "").leaves, l.IsWritable) ∧
      Writes (Derivation.readX "").words "\tread \n x " ∧
      (parse "\tread \n x ").error = none ∧
      (parse "\tread \n x ").tree = ⟨defaultTitle, (Derivation.readX "").trees⟩ := by
  have hread : IsLexeme "read".toList := by decide +kernel
  have hx : IsLexeme "x".toList := by decide +kernel
  have hd : ∀ l ∈ (Derivation.readX "").leaves, l.IsWritable := by
    rw [Derivation.leaves_readX]
    simp only [List.forall_mem_cons, List.not_mem_nil, false_imp_iff, implies_true, and_true]
    refine ⟨⟨_, scan_of_isLexeme hread, ?_, rfl⟩, ⟨_, scan_of_isLexeme hx, ?_, rfl⟩, rfl⟩
    · decide +kernel
    · decide +kernel
  have hsource : Writes (Derivation.readX "").words "\tread \n x " := by
    have hgap : IsGap [' ', '\n', ' '] := by decide
    have hlast : Spaced ["x"] ("x".toList ++ [' ']) := .last "x" (by decide)
    exact ⟨['\t'], "read \n x ".toList, rfl, by decide, .more "read" hgap (by decide) hlast⟩
  exact ⟨hd, hsource, parse_of_writes _ hd hsource⟩

end WhileSyntax
