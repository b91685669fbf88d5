import WhileSyntax.Proofs.Derivation
namespace WhileSyntax

/-! # What a stream has to come

The next tokens of a stream as leaves, and the stream that is left behind them. Both go on past the
last token, where a stream shows its end for as long as it is asked.
-/

namespace TokenStream

def leaf (s : TokenStream) : Leaf :=
  ⟨s.kind, s.lexeme⟩

def upcoming (s : TokenStream) : Nat → List Leaf
  | 0 => []
  | n + 1 => s.leaf :: s.advance.upcoming n

/-- The stream behind the next `n` tokens. -/
def skip (s : TokenStream) : Nat → TokenStream
  | 0 => s
  | n + 1 => s.advance.skip n

/-- What is seen at the end of a stream. -/
def endLeaf : Leaf :=
  ⟨.endOfStream, ""⟩

@[simp] theorem length_upcoming (s : TokenStream) (n : Nat) : (s.upcoming n).length = n := by
  induction n generalizing s with
  | zero => rfl
  | succ n ih => simp [upcoming, ih]

theorem upcoming_add (s : TokenStream) (m n : Nat) :
    s.upcoming (m + n) = s.upcoming m ++ (s.skip m).upcoming n := by
  induction m generalizing s with
  | zero => simp [upcoming, skip]
  | succ m ih => simp [Nat.succ_add, upcoming, skip, ih]

theorem skip_add (s : TokenStream) (m n : Nat) : s.skip (m + n) = (s.skip m).skip n := by
  induction m generalizing s with
  | zero => simp [skip]
  | succ m ih => simp [Nat.succ_add, skip, ih]

/-- One more token is seen where the first `n` end. -/
theorem upcoming_succ (s : TokenStream) (n : Nat) :
    s.upcoming (n + 1) = s.upcoming n ++ [(s.skip n).leaf] :=
  s.upcoming_add n 1

theorem skip_succ (s : TokenStream) (n : Nat) : s.skip (n + 1) = (s.skip n).advance :=
  s.skip_add n 1

theorem remaining_skip (s : TokenStream) (n : Nat) : (s.skip n).remaining = s.remaining.drop n := by
  induction n generalizing s with
  | zero => simp [skip]
  | succ n ih => simp [skip, ih, advance]

theorem leaf_of_remaining_eq_nil {s : TokenStream} (h : s.remaining = []) : s.leaf = endLeaf := by
  simp [leaf, kind, lexeme, endLeaf, h]

theorem leaf_of_remaining_eq_cons {s : TokenStream} {t : Token} {ts : List Token}
    (h : s.remaining = t :: ts) : s.leaf = t.leaf := by
  simp [leaf, kind, lexeme, Token.leaf, h]

/-- The next tokens are those that remain, and then the end again and again. -/
theorem upcoming_eq (s : TokenStream) (n : Nat) :
    s.upcoming n =
      (s.remaining.take n).map Token.leaf ++ List.replicate (n - s.remaining.length) endLeaf := by
  induction n generalizing s with
  | zero => simp [upcoming]
  | succ n ih =>
    cases h : s.remaining with
    | nil =>
      have hrest : s.advance.remaining = [] := by simp [advance, h]
      simp [upcoming, ih, hrest, leaf_of_remaining_eq_nil h, List.replicate_succ]
    | cons t ts =>
      have hrest : s.advance.remaining = ts := by simp [advance, h]
      simp [upcoming, ih, hrest, leaf_of_remaining_eq_cons h]

/-! ## Up to the end of the stream -/

/-- The leaves of the tokens up to the first that is the end of the stream, which is put behind
them if none of them is. -/
def throughEnd : List Token → List Leaf
  | [] => [endLeaf]
  | t :: ts => if t.kind = .endOfStream then [t.leaf] else t.leaf :: throughEnd ts

/-- What is seen as far as one end of the stream, the first, does not depend on how it was seen. -/
theorem eq_throughEnd_of_upcoming {s : TokenStream} {n : Nat} {ls : List Leaf} {l : Leaf}
    (h : s.upcoming n = ls ++ [l]) (hl : l.kind = .endOfStream)
    (hls : ∀ m ∈ ls, m.kind ≠ .endOfStream) : ls ++ [l] = throughEnd s.remaining := by
  induction ls generalizing s n with
  | nil =>
    cases n with
    | zero => cases h
    | succ n =>
      obtain ⟨rfl, -⟩ := List.cons.inj h
      cases hs : s.remaining with
      | nil => simp [throughEnd, leaf_of_remaining_eq_nil hs]
      | cons t ts =>
        rw [leaf_of_remaining_eq_cons hs] at hl ⊢
        have hkind : t.kind = .endOfStream := hl
        simp [throughEnd, hkind]
  | cons m ls ih =>
    cases n with
    | zero => cases h
    | succ n =>
      obtain ⟨rfl, hrest⟩ := List.cons.inj h
      obtain ⟨hm, hls⟩ := List.forall_mem_cons.1 hls
      cases hs : s.remaining with
      | nil =>
        -- past the last token the end is seen, which is none of `ls`
        rw [leaf_of_remaining_eq_nil hs] at hm
        exact absurd rfl hm
      | cons t ts =>
        have hremaining : s.advance.remaining = ts := by simp [advance, hs]
        rw [leaf_of_remaining_eq_cons hs] at hm ⊢
        have hkind : t.kind ≠ .endOfStream := hm
        rw [throughEnd, if_neg hkind, ← hremaining, ← ih hrest hls, List.cons_append]

/-- Without an end of the stream among them, all tokens are seen, and then the end. -/
theorem throughEnd_eq_append {ts : List Token} (h : ∀ t ∈ ts, t.kind ≠ .endOfStream) :
    throughEnd ts = ts.map Token.leaf ++ [endLeaf] := by
  induction ts with
  | nil => rfl
  | cons t ts ih =>
    obtain ⟨ht, hts⟩ := List.forall_mem_cons.1 h
    simp [throughEnd, ht, ih hts]

/-- With an end of the stream among them, no more is seen than there is. -/
theorem length_throughEnd_le {ts : List Token} (h : ∃ t ∈ ts, t.kind = .endOfStream) :
    (throughEnd ts).length ≤ ts.length := by
  induction ts with
  | nil => simp at h
  | cons t ts ih =>
    by_cases ht : t.kind = .endOfStream
    · simp [throughEnd, ht]
    · have hts : ∃ t ∈ ts, t.kind = .endOfStream := by simpa [ht] using h
      simpa [throughEnd, ht] using ih hts

theorem kinds_throughEnd (ts : List Token) :
    (throughEnd ts).map Leaf.kind =
      (ts.map Token.kind).takeWhile (· ≠ .endOfStream) ++ [.endOfStream] := by
  induction ts with
  | nil => rfl
  | cons t ts ih =>
    by_cases ht : t.kind = .endOfStream
    · simp [throughEnd, ht, Token.leaf]
    · simp [throughEnd, ht, Token.leaf, ih]

/-- The kinds of the tokens before the first end of the stream, of all tokens if there is none. -/
def sentence (s : TokenStream) : List TokenKind :=
  (s.remaining.map Token.kind).takeWhile (· ≠ .endOfStream)

theorem sentence_of_kind_eq {s : TokenStream} (h : s.kind = .endOfStream) : s.sentence = [] := by
  cases hs : s.remaining <;> simp_all [sentence, kind]

theorem sentence_of_kind_ne {s : TokenStream} (h : s.kind ≠ .endOfStream) :
    s.sentence = s.kind :: s.advance.sentence := by
  cases hs : s.remaining <;> simp_all [sentence, kind, advance]

/-- Only one word is seen before an end of the stream. -/
theorem eq_sentence_of_upcoming {s : TokenStream} {n : Nat} {w : List TokenKind}
    (h : (s.upcoming n).map Leaf.kind = w ++ [.endOfStream]) (hw : .endOfStream ∉ w) :
    w = s.sentence := by
  obtain ⟨ls, ms, hsplit, rfl, hms⟩ := List.map_eq_append_iff.1 h
  obtain ⟨l, rfl, hl⟩ := List.map_eq_singleton_iff.1 hms
  have hls : ∀ m ∈ ls, m.kind ≠ .endOfStream := fun m hm hkind =>
    hw (hkind ▸ List.mem_map_of_mem hm)
  have hkinds := kinds_throughEnd s.remaining
  rw [← eq_throughEnd_of_upcoming hsplit hl hls, List.map_append, List.map_cons, hl] at hkinds
  exact List.append_cancel_right hkinds

/-- Up to the first end of the stream, what is seen begins the sentence. -/
theorem upcoming_prefix_sentence {s : TokenStream} {n : Nat}
    (h : .endOfStream ∉ (s.upcoming n).map Leaf.kind) :
    (s.upcoming (n + 1)).map Leaf.kind <+: s.sentence ++ [.endOfStream] := by
  induction n generalizing s with
  | zero =>
    by_cases hkind : s.kind = .endOfStream
    · simp [upcoming, leaf, hkind, sentence_of_kind_eq hkind]
    · simp [upcoming, leaf, sentence_of_kind_ne hkind]
  | succ n ih =>
    -- none of the kinds shown is the end, the first least of all
    have hkind : s.kind ≠ .endOfStream := by
      intro hkind
      simp [upcoming, leaf, hkind] at h
    have hrest := ih (s := s.advance) fun hmem => h (List.mem_cons_of_mem _ hmem)
    rw [sentence_of_kind_ne hkind, upcoming]
    simpa [leaf] using hrest

/-- Before the end of the stream, the next tokens are among those that remain. -/
theorem kinds_upcoming {s : TokenStream} {n : Nat}
    (h : .endOfStream ∉ (s.upcoming n).map Leaf.kind) :
    (s.upcoming n).map Leaf.kind = (s.remaining.take n).map Token.kind := by
  rw [upcoming_eq] at h ⊢
  have hnone : n - s.remaining.length = 0 := by
    rcases Nat.eq_zero_or_pos (n - s.remaining.length) with hzero | hpos
    · exact hzero
    · exact absurd (by simp [endLeaf, Nat.ne_of_gt hpos]) h
  simp [hnone, Function.comp_def, Token.leaf]

end TokenStream

end WhileSyntax
