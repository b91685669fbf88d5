import Mathlib.Computability.Language
import WhileSyntax.Proofs.Scanning
namespace WhileSyntax

open scoped Computability

/-! # Segments

The shapes of lexemes, as languages that know nothing of a scan. The reach of a lexeme is told by
them: what it covers is a segment, unless it is a lone character that is none, and no segment goes
beyond it (`isMunch_lexemeReach`). For both, a character is a segment together with those behind it
just when the lexeme that it begins reaches over all of them (`cons_mem_segments_iff`).
-/

/-- The texts of one character that has the property. -/
def oneOf (p : Char → Bool) : Language Char :=
  {cs | ∃ c, p c = true ∧ cs = [c]}

/-- The shapes of lexemes. -/
inductive Segment where
  | assign | relation | operator | word | numeric
  deriving DecidableEq, Repr

namespace Segment

def digits : Language Char :=
  oneOf Char.isDigit * (oneOf Char.isDigit)∗

def fraction : Language Char :=
  oneOf (· = '.') * digits

def texts : Segment → Language Char
  | assign => {":=".toList}
  | relation => {cs | cs ∈ ["<=", ">=", "!=", "<", ">", "="].map String.toList}
  | operator => oneOf (· ∈ ['+', '-', '*', '/', '(', ')'])
  | word => oneOf Text.isWordStart * (oneOf Text.isWordContinue)∗
  | numeric => digits * fraction∗

end Segment

def segments : Language Char :=
  {cs | ∃ s : Segment, cs ∈ s.texts}

/-- The lexeme is the longest segment at the front of itself and what is behind it. Where no segment
stands at the front, it is a single character. -/
def IsMunch (lexeme behind : List Char) : Prop :=
  (lexeme ∈ segments ∧ ∀ cs ∈ segments, cs <+: lexeme ++ behind → cs.length ≤ lexeme.length) ∨
    ((∀ cs ∈ segments, ¬ cs <+: lexeme ++ behind) ∧ lexeme.length = 1)

/-! ## Membership -/

section

variable {p : Char → Bool} {l : Language Char} {c : Char} {cs : List Char}

theorem cons_mem_oneOf_mul : c :: cs ∈ oneOf p * l ↔ p c = true ∧ cs ∈ l := by
  constructor
  · rintro ⟨_, ⟨d, hd, rfl⟩, rest, hrest, heq⟩
    obtain ⟨rfl, rfl⟩ := List.cons.inj heq
    exact ⟨hd, hrest⟩
  · rintro ⟨hc, hcs⟩
    exact ⟨[c], ⟨c, hc, rfl⟩, cs, hcs, rfl⟩

theorem nil_not_mem_oneOf_mul : [] ∉ oneOf p * l := by
  rintro ⟨_, ⟨d, _, rfl⟩, rest, _, heq⟩
  cases heq

theorem mem_kstar_oneOf : cs ∈ (oneOf p)∗ ↔ ∀ c ∈ cs, p c = true := by
  induction cs with
  | nil => simp [Language.nil_mem_kstar]
  | cons c cs ih =>
    rw [← Language.one_add_self_mul_kstar_eq_kstar, Language.mem_add, cons_mem_oneOf_mul, ih,
      List.forall_mem_cons]
    simp [Language.mem_one]

end

theorem append_mem_kstar {l : Language Char} {xs ys : List Char} (hxs : xs ∈ l) (hys : ys ∈ l∗) :
    xs ++ ys ∈ l∗ := by
  rw [← Language.one_add_self_mul_kstar_eq_kstar, Language.mem_add]
  exact .inr (Language.append_mem_mul hxs hys)

/-! ## Runs of digits with points between them -/

theorem numeralReach_digit {c : Char} (hc : c.isDigit = true) (cs : List Char) :
    numeralReach 0 (c :: cs) = numeralReach 0 cs + 1 := by
  cases cs with
  | nil => simp [numeralReach, hc]
  | cons d cs => rw [numeralReach, if_pos hc, numeralReach_add 1 0, Nat.add_comm]

theorem numeralReach_point {d : Char} (hd : d.isDigit = true) (cs : List Char) :
    numeralReach 0 ('.' :: d :: cs) = numeralReach 0 cs + 2 := by
  rw [numeralReach, if_neg (by decide), if_pos (by simp [hd]), numeralReach_add 2 0, Nat.add_comm]

/-- What holds of a text where no numeral goes on, and holds of one that goes on with a digit, or
with a point and a digit, if it holds behind them, holds of every text. -/
theorem numeral_induction {P : List Char → Prop}
    (digit : ∀ c cs, c.isDigit = true → P cs → P (c :: cs))
    (point : ∀ d cs, d.isDigit = true → P cs → P ('.' :: d :: cs))
    (stop : ∀ cs, numeralReach 0 cs = 0 → P cs) (cs : List Char) : P cs := by
  have hnil : P [] := stop [] rfl
  refine numeralReach.induct (motive := fun _ cs => P cs) ?_ ?_ ?_ ?_ ?_ ?_ 0 cs
  · exact fun _ => hnil
  · exact fun _ c hc => digit c [] hc hnil
  · exact fun _ c hc => stop [c] (by simp [numeralReach, hc])
  · exact fun _ c d cs hc ih => digit c (d :: cs) hc ih
  · intro _ c d cs _ hd ih
    simp only [Bool.and_eq_true, decide_eq_true_eq] at hd
    obtain ⟨rfl, hd⟩ := hd
    exact point d cs hd ih
  · exact fun _ c d cs hc hd => stop _ (by rw [numeralReach, if_neg hc, if_neg hd])

/-- The reach of a numeral is not changed by cutting off what is beyond it. -/
theorem numeralReach_take (cs : List Char) :
    numeralReach 0 (cs.take (numeralReach 0 cs)) = numeralReach 0 cs := by
  induction cs using numeral_induction with
  | digit c cs hc ih => rw [numeralReach_digit hc, List.take_succ_cons, numeralReach_digit hc, ih]
  | point d cs hd ih =>
    rw [numeralReach_point hd, List.take_succ_cons, List.take_succ_cons, numeralReach_point hd, ih]
  | stop cs hcs =>
    rw [hcs]
    rfl

/-- A numeral that reaches to the end of a text goes on from there. -/
theorem le_numeralReach_append {cs : List Char} (hcs : numeralReach 0 cs = cs.length)
    (rest : List Char) : cs.length ≤ numeralReach 0 (cs ++ rest) := by
  induction cs using numeral_induction with
  | digit c cs hc ih =>
    rw [numeralReach_digit hc] at hcs
    rw [List.cons_append, numeralReach_digit hc]
    exact Nat.succ_le_succ (ih (Nat.succ.inj hcs))
  | point d cs hd ih =>
    rw [numeralReach_point hd] at hcs
    rw [List.cons_append, List.cons_append, numeralReach_point hd]
    exact Nat.add_le_add_right (ih (Nat.add_right_cancel hcs)) 2
  | stop cs hstop =>
    rw [← hcs, hstop]
    exact Nat.zero_le _

/-- What may follow the first digit of a numeral. -/
theorem mem_numeral_iff {cs : List Char} :
    cs ∈ (oneOf Char.isDigit)∗ * Segment.fraction∗ ↔ numeralReach 0 cs = cs.length := by
  constructor
  · intro hcs
    obtain ⟨ds, hds, rest, hrest, rfl⟩ := Language.mem_mul.1 hcs
    obtain ⟨fs, rfl, hfs⟩ := Language.mem_kstar.1 hrest
    -- a run of digits is reached over, and so is one behind each of the points
    have hrun : ∀ ds rest : List Char, ds ∈ (oneOf Char.isDigit)∗ →
        numeralReach 0 rest = rest.length → numeralReach 0 (ds ++ rest) = (ds ++ rest).length := by
      intro ds rest hds hrest
      rw [mem_kstar_oneOf] at hds
      induction ds with
      | nil => exact hrest
      | cons d ds ih =>
        obtain ⟨hd, hds⟩ := List.forall_mem_cons.1 hds
        rw [List.cons_append, numeralReach_digit hd, ih hds, List.length_cons]
    refine hrun ds fs.flatten hds ?_
    clear hcs hds hrest
    induction fs with
    | nil => rfl
    | cons f fs ih =>
      obtain ⟨hf, hfractions⟩ := List.forall_mem_cons.1 hfs
      obtain ⟨_, ⟨c, hc, rfl⟩, _, ⟨_, ⟨d, hd, rfl⟩, es, hes, rfl⟩, rfl⟩ := hf
      obtain rfl := of_decide_eq_true hc
      have hreach := hrun es fs.flatten hes (ih hfractions)
      simp only [List.flatten_cons, List.cons_append, List.nil_append]
      rw [numeralReach_point hd, hreach, List.length_cons, List.length_cons]
  · intro hcs
    induction cs using numeral_induction with
    | digit c cs hc ih =>
      rw [numeralReach_digit hc] at hcs
      obtain ⟨ds, hds, rest, hrest, rfl⟩ := Language.mem_mul.1 (ih (Nat.succ.inj hcs))
      rw [mem_kstar_oneOf] at hds
      have hrun : c :: ds ∈ (oneOf Char.isDigit)∗ :=
        mem_kstar_oneOf.2 (List.forall_mem_cons.2 ⟨hc, hds⟩)
      exact Language.append_mem_mul hrun hrest
    | point d cs hd ih =>
      rw [numeralReach_point hd] at hcs
      obtain ⟨ds, hds, rest, hrest, rfl⟩ := Language.mem_mul.1 (ih (Nat.add_right_cancel hcs))
      have hfraction : '.' :: d :: ds ∈ Segment.fraction :=
        cons_mem_oneOf_mul.2 ⟨rfl, cons_mem_oneOf_mul.2 ⟨hd, hds⟩⟩
      exact Language.append_mem_mul (Language.nil_mem_kstar _) (append_mem_kstar hfraction hrest)
    | stop cs hstop =>
      obtain rfl : cs = [] := List.length_eq_zero_iff.1 (hcs.symm.trans hstop)
      exact Language.append_mem_mul (Language.nil_mem_kstar _) (Language.nil_mem_kstar _)

/-! ## Classes of first characters -/

/-- What holds of every character with the code point of a digit holds of every digit. -/
theorem Text.forall_digit {P : Char → Prop} (h : ∀ n ∈ List.range' 48 10, P (Char.ofNat n))
    {c : Char} (hc : c.isDigit = true) : P c := by
  simp only [Char.isDigit, Bool.and_eq_true, decide_eq_true_eq, ge_iff_le,
    UInt32.le_iff_toNat_le] at hc
  have hpoint := h c.toNat (List.mem_range'_1.2 ⟨hc.1, Nat.lt_succ_of_le hc.2⟩)
  rwa [Char.ofNat_toNat] at hpoint

theorem Text.isWordStart_of_isDigit {c : Char} (hc : c.isDigit = true) : isWordStart c = false :=
  forall_digit (P := fun c => isWordStart c = false) (by decide +kernel) hc

theorem joinsEquals_of_isDigit {c : Char} (hc : c.isDigit = true) : joinsEquals c = false :=
  Text.forall_digit (P := fun c => joinsEquals c = false) (by decide) hc

theorem eq_of_joinsEquals {c : Char} (hc : joinsEquals c = true) :
    c = ':' ∨ c = '!' ∨ c = '<' ∨ c = '>' := by
  simpa [joinsEquals, or_assoc] using hc

theorem joinsEquals_of_isWordStart {c : Char} (hc : Text.isWordStart c = true) :
    joinsEquals c = false := by
  rw [← Bool.not_eq_true]
  intro hjoins
  rcases eq_of_joinsEquals hjoins with rfl | rfl | rfl | rfl
  all_goals exact absurd hc (by decide)

/-! ## The reach of a lexeme -/

theorem lexemeReach_of_joinsEquals {c : Char} (hc : joinsEquals c = true) (cs : List Char) :
    lexemeReach c cs = if cs.head? = some '=' then 1 else 0 :=
  if_pos hc

theorem lexemeReach_of_isDigit {c : Char} (hc : c.isDigit = true) (cs : List Char) :
    lexemeReach c cs = numeralReach 0 cs := by
  rw [lexemeReach, if_neg (by simp [joinsEquals_of_isDigit hc]), if_pos hc]

theorem lexemeReach_of_isWordStart {c : Char} (hc : Text.isWordStart c = true) (cs : List Char) :
    lexemeReach c cs = (cs.takeWhile Text.isWordContinue).length := by
  have hdigit : ¬ c.isDigit = true := by
    intro hdigit
    exact absurd hc (by simp [Text.isWordStart_of_isDigit hdigit])
  rw [lexemeReach, if_neg (by simp [joinsEquals_of_isWordStart hc]), if_neg hdigit, if_pos hc]

/-- A lexeme begins with a character of one of the three classes, or it is one character. -/
theorem lexemeReach_cases (c : Char) :
    joinsEquals c = true ∨ c.isDigit = true ∨ Text.isWordStart c = true ∨
      ∀ cs, lexemeReach c cs = 0 := by
  by_cases hjoins : joinsEquals c = true
  · exact .inl hjoins
  by_cases hdigit : c.isDigit = true
  · exact .inr (.inl hdigit)
  by_cases hword : Text.isWordStart c = true
  · exact .inr (.inr (.inl hword))
  refine .inr (.inr (.inr fun cs => ?_))
  rw [lexemeReach, if_neg hjoins, if_neg hdigit, if_neg hword]

/-- A lexeme reaches as far when what is beyond it is cut off. -/
theorem lexemeReach_take (c : Char) (cs : List Char) :
    lexemeReach c (cs.take (lexemeReach c cs)) = lexemeReach c cs := by
  -- in no class does the reach depend on what is beyond it
  rcases lexemeReach_cases c with hc | hc | hc | hc
  · cases cs with
    | nil => rw [List.take_nil]
    | cons d cs =>
      by_cases hd : d = '='
      · simp [lexemeReach_of_joinsEquals hc, hd]
      · simp [lexemeReach_of_joinsEquals hc, hd]
  · simp only [lexemeReach_of_isDigit hc, numeralReach_take]
  · simp only [lexemeReach_of_isWordStart hc]
    rw [← List.prefix_iff_eq_take.1 (List.takeWhile_prefix _), List.takeWhile_idem]
  · rw [hc, hc]

/-- A lexeme that reaches to the end of a text reaches at least as far when the text goes on. -/
theorem le_lexemeReach_append {c : Char} {cs : List Char} (hcs : lexemeReach c cs = cs.length)
    (rest : List Char) : cs.length ≤ lexemeReach c (cs ++ rest) := by
  rcases lexemeReach_cases c with hc | hc | hc | hc
  · rw [lexemeReach_of_joinsEquals hc] at hcs ⊢
    cases cs with
    | nil => exact Nat.zero_le _
    | cons d cs => exact hcs.ge
  · rw [lexemeReach_of_isDigit hc] at hcs ⊢
    exact le_numeralReach_append hcs rest
  · rw [lexemeReach_of_isWordStart hc] at hcs ⊢
    -- the whole tail belongs to the word, so more behind it cannot shorten it
    have hall : cs.takeWhile Text.isWordContinue = cs :=
      (List.takeWhile_prefix _).eq_of_length hcs
    rw [List.takeWhile_append_of_pos (List.takeWhile_eq_self_iff.1 hall), List.length_append]
    exact Nat.le_add_right ..
  · rw [← hcs, hc]
    exact Nat.zero_le _

/-! ## Segments and the reach -/

/-- Whether a character alone is a segment. -/
def standsAlone (c : Char) : Bool :=
  c ∈ ['<', '>', '=', '+', '-', '*', '/', '(', ')'] || c.isDigit || Text.isWordStart c

theorem mem_relation_iff {cs : List Char} :
    cs ∈ Segment.texts .relation ↔ cs ∈ ["<=", ">=", "!=", "<", ">", "="].map String.toList :=
  Iff.rfl

theorem nil_not_mem_segments : [] ∉ segments := by
  rintro ⟨_ | _ | _ | _ | _, hs⟩
  · cases hs
  · rw [mem_relation_iff] at hs
    exact absurd hs (by decide)
  · obtain ⟨c, _, heq⟩ := hs
    cases heq
  · exact nil_not_mem_oneOf_mul hs
  · rw [Segment.texts, Segment.digits, mul_assoc] at hs
    exact nil_not_mem_oneOf_mul hs

theorem cons_mem_numeric_iff {c : Char} {cs : List Char} :
    c :: cs ∈ Segment.texts .numeric ↔ c.isDigit = true ∧ numeralReach 0 cs = cs.length := by
  rw [Segment.texts, Segment.digits, mul_assoc, cons_mem_oneOf_mul, mem_numeral_iff]

theorem singleton_mem_segments {c : Char} (hc : standsAlone c = true) : [c] ∈ segments := by
  simp only [standsAlone, Bool.or_eq_true, decide_eq_true_eq, or_assoc] at hc
  rcases hc with hc | hc | hc
  · -- the symbols that are relations, then those that are operators
    have hrelation : c ∈ ['<', '>', '='] → [c] ∈ segments := by
      intro hc
      refine ⟨.relation, mem_relation_iff.2 ?_⟩
      simp only [List.mem_cons, List.not_mem_nil, or_false] at hc
      rcases hc with rfl | rfl | rfl
      all_goals decide
    have hoperator : c ∈ ['+', '-', '*', '/', '(', ')'] → [c] ∈ segments := by
      intro hc
      exact ⟨.operator, c, decide_eq_true hc, rfl⟩
    have hlists : c ∈ ['<', '>', '='] ++ ['+', '-', '*', '/', '(', ')'] := hc
    exact (List.mem_append.1 hlists).elim hrelation hoperator
  · exact ⟨.numeric, cons_mem_numeric_iff.2 ⟨hc, rfl⟩⟩
  · exact ⟨.word, cons_mem_oneOf_mul.2 ⟨hc, Language.nil_mem_kstar _⟩⟩

/-- A text is a segment if the lexeme at its front reaches over all of it, and it is no lone
character that is none. -/
theorem cons_mem_segments_iff {c : Char} {cs : List Char} :
    c :: cs ∈ segments ↔ lexemeReach c cs = cs.length ∧ (cs = [] → standsAlone c = true) := by
  constructor
  · -- the shape tells the class of the first character, and so how the reach is computed
    rintro ⟨_ | _ | _ | _ | _, hs⟩
    · cases hs
      decide
    · rw [mem_relation_iff] at hs
      have hall : ∀ w ∈ ["<=", ">=", "!=", "<", ">", "="].map String.toList,
          lexemeReach w.head! w.tail = w.tail.length ∧
            (w.tail = [] → standsAlone w.head! = true) := by
        decide +kernel
      exact hall _ hs
    · obtain ⟨d, hd, heq⟩ := hs
      obtain ⟨rfl, rfl⟩ := List.cons.inj heq
      simp only [List.mem_cons, List.not_mem_nil, or_false, decide_eq_true_eq] at hd
      rcases hd with rfl | rfl | rfl | rfl | rfl | rfl
      all_goals decide
    · obtain ⟨hc, hcs⟩ := cons_mem_oneOf_mul.1 hs
      have hall : cs.takeWhile Text.isWordContinue = cs :=
        List.takeWhile_eq_self_iff.2 (mem_kstar_oneOf.1 hcs)
      rw [lexemeReach_of_isWordStart hc, hall]
      exact ⟨rfl, fun _ => by simp [standsAlone, hc]⟩
    · obtain ⟨hc, hcs⟩ := cons_mem_numeric_iff.1 hs
      rw [lexemeReach_of_isDigit hc]
      exact ⟨hcs, fun _ => by simp [standsAlone, hc]⟩
  · -- the class of the first character leaves one shape for what is reached over
    rintro ⟨hreach, hstands⟩
    rcases lexemeReach_cases c with hc | hc | hc | hc
    · rw [lexemeReach_of_joinsEquals hc] at hreach
      split at hreach
      · next heq =>
        -- one of the four characters and an equals sign
        obtain ⟨rest, rfl⟩ := List.head?_eq_some_iff.1 heq
        obtain rfl : rest = [] := List.length_eq_zero_iff.1 (Nat.succ.inj hreach).symm
        rcases eq_of_joinsEquals hc with rfl | rfl | rfl | rfl
        · exact ⟨.assign, rfl⟩
        all_goals exact ⟨.relation, mem_relation_iff.2 (by decide)⟩
      · obtain rfl : cs = [] := List.length_eq_zero_iff.1 hreach.symm
        exact singleton_mem_segments (hstands rfl)
    · rw [lexemeReach_of_isDigit hc] at hreach
      exact ⟨.numeric, cons_mem_numeric_iff.2 ⟨hc, hreach⟩⟩
    · rw [lexemeReach_of_isWordStart hc] at hreach
      have hall : cs.takeWhile Text.isWordContinue = cs :=
        (List.takeWhile_prefix _).eq_of_length hreach
      refine ⟨.word, cons_mem_oneOf_mul.2 ⟨hc, mem_kstar_oneOf.2 ?_⟩⟩
      exact List.takeWhile_eq_self_iff.1 hall
    · rw [hc] at hreach
      obtain rfl : cs = [] := List.length_eq_zero_iff.1 hreach.symm
      exact singleton_mem_segments (hstands rfl)

/-- What a scan takes at a character is the longest segment there, or the character alone. -/
theorem isMunch_lexemeReach (c : Char) (cs : List Char) :
    IsMunch (c :: cs.take (lexemeReach c cs)) (cs.drop (lexemeReach c cs)) := by
  have hlength : (cs.take (lexemeReach c cs)).length = lexemeReach c cs :=
    List.length_take_of_le (lexemeReach_le c cs)
  have htext : c :: cs.take (lexemeReach c cs) ++ cs.drop (lexemeReach c cs) = c :: cs := by
    rw [List.cons_append, List.take_append_drop]
  have hlongest : ∀ d ds, d :: ds ∈ segments → d :: ds <+: c :: cs →
      d = c ∧ ds.length ≤ lexemeReach c cs := by
    intro d ds hds hfront
    obtain ⟨rfl, rest, rfl⟩ := List.cons_prefix_cons.1 hfront
    exact ⟨rfl, le_lexemeReach_append (cons_mem_segments_iff.1 hds).1 rest⟩
  unfold IsMunch
  rw [htext]
  by_cases hlexeme : c :: cs.take (lexemeReach c cs) ∈ segments
  · refine .inl ⟨hlexeme, ?_⟩
    rintro (_ | ⟨d, ds⟩) hds hfront
    · exact Nat.zero_le _
    · rw [List.length_cons, List.length_cons, hlength]
      exact Nat.succ_le_succ (hlongest d ds hds hfront).2
  · -- the reach is right, so it is the lone character that is no segment
    rw [cons_mem_segments_iff, lexemeReach_take, hlength, not_and, Classical.not_imp] at hlexeme
    obtain ⟨hnil, halone⟩ := hlexeme rfl
    refine .inr ⟨?_, congrArg List.length (congrArg (List.cons c) hnil)⟩
    rw [hnil, List.length_nil] at hlength
    rintro (_ | ⟨d, ds⟩) hds hfront
    · exact nil_not_mem_segments hds
    · obtain ⟨rfl, hle⟩ := hlongest d ds hds hfront
      rw [← hlength, Nat.le_zero, List.length_eq_zero_iff] at hle
      exact halone ((cons_mem_segments_iff.1 hds).2 hle)

end WhileSyntax
