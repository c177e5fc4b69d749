import Mathlib.Data.List.Infix
import StatefulPipeline.Toml.Quoted

/-! Quoted texts are read back as they were written. A text is read piece by piece, and a written
character is one piece; so what is to be shown of each form is that a piece gives its character
back and that the closing mark is found where it stands and not before. The form on several lines
with escapes and the literal one may hold marks of their own, but never three in a row. -/

namespace StatefulPipeline
namespace Toml

/-- Pieces of the text lead to the closing mark: they make up `s`, and `rest` follows the mark. -/
inductive Reads (close piece : Reader (List Char)) : List Char → List Char → List Char → Prop
  | closed {cs s rest : List Char} : close cs = some (s, rest) → Reads close piece cs s rest
  | next {cs s cs' t rest : List Char} : close cs = none → piece cs = some (s, cs') →
      cs'.length < cs.length → Reads close piece cs' t rest → Reads close piece cs (s ++ t) rest

namespace Reads

variable {close piece : Reader (List Char)} {cs s rest : List Char}

theorem pieces_eq (h : Reads close piece cs s rest) {fuel : Nat} (hf : cs.length < fuel) :
    pieces close piece fuel cs = some (s, rest) := by
  induction h generalizing fuel with
  | closed hc =>
    obtain _ | fuel := fuel
    · exact absurd hf (Nat.not_lt_zero _)
    · simp [pieces, hc]
  | next hc hp hl _ ih =>
    obtain _ | fuel := fuel
    · exact absurd hf (Nat.not_lt_zero _)
    · have hrest := @ih fuel (by omega)
      simp [pieces, hc, hp, hrest]

theorem upTo_eq (h : Reads close piece cs s rest) : upTo close piece cs = some (s, rest) :=
  h.pieces_eq (Nat.lt_succ_self _)

end Reads

/-! One character at a time. -/

theorem afterLineEnd?_of_plain {c : Char} (h : isPlain c = true) (cs : List Char) :
    afterLineEnd? (c :: cs) = none := by
  have hn : c ≠ '\n' := by
    rintro rfl
    exact absurd h (by decide)
  have hr : c ≠ '\r' := by
    rintro rfl
    exact absurd h (by decide)
  simp [afterLineEnd?, hn, hr]

theorem hexDigits_append {count value n : Nat} {ds : List Char} (tail : List Char)
    (h : hexDigits count value ds = some (n, [])) :
    hexDigits count value (ds ++ tail) = some (n, tail) := by
  induction count generalizing value ds with
  | zero =>
    obtain ⟨rfl, rfl⟩ : value = n ∧ ds = [] := by simpa [hexDigits] using h
    rfl
  | succ count ih =>
    cases ds with
    | nil => simp [hexDigits] at h
    | cons d ds =>
      rw [hexDigits] at h
      rw [List.cons_append, hexDigits]
      cases hd : hexDigit? d with
      | none => simp [hd] at h
      | some x =>
        rw [hd] at h
        exact ih h

theorem hexDigits_control : ∀ n < 128,
    hexDigits 4 0 ((Numeral.hexPadded 4 n).map Char.toUpper) = some (n, []) := by
  decide

theorem toNat_lt_of_not_plain {c : Char} (h : isPlain c = false) : c.toNat < 128 := by
  simp only [isPlain, decide_eq_false_iff_not, not_or, not_and_or] at h
  omega

theorem codePoint_control {c : Char} (h : isPlain c = false) (tail : List Char) :
    codePoint 4 ((Numeral.hexPadded 4 c.toNat).map Char.toUpper ++ tail) = some ([c], tail) := by
  have hd := hexDigits_append tail (hexDigits_control c.toNat (toNat_lt_of_not_plain h))
  have hv : c.toNat.isValidChar := c.valid
  simp only [codePoint, hd, if_pos hv, Char.ofNat_toNat]

inductive WrittenAs (c : Char) : List Char → Prop
  | short {e : Char × Char} : e ∈ shortEscapes → e.2 = c → WrittenAs c ['\\', e.1]
  | plain : isPlain c = true → c ≠ '\\' → c ≠ quote → WrittenAs c [c]
  | control : isPlain c = false →
      WrittenAs c ('\\' :: 'u' :: (Numeral.hexPadded 4 c.toNat).map Char.toUpper)

theorem writtenAs {c : Char} (hq : c ≠ quote) : WrittenAs c (writeChar c) := by
  rw [writeChar, if_neg hq]
  cases hf : shortEscapes.find? fun e => e.2 = c with
  | some e => exact .short (List.mem_of_find?_eq_some hf) (by simpa using List.find?_some hf)
  | none =>
    cases hp : isPlain c with
    | false => exact .control hp
    | true =>
      refine .plain hp ?_ hq
      rintro rfl
      exact absurd hf (by decide)

theorem escape_short {e : Char × Char} (he : e ∈ shortEscapes) (tail : List Char) :
    escape (e.1 :: tail) = some ([e.2], tail) := by
  have hfind : ∀ e ∈ shortEscapes, (shortEscapes.find? fun x => x.1 = e.1) = some e := by decide
  simp [escape, hfind e he]

namespace WrittenAs

variable {c : Char} {w : List Char}

theorem basicPiece_eq (h : WrittenAs c w) (tail : List Char) :
    basicPiece (w ++ tail) = some ([c], tail) := by
  cases h with
  | short he hc => simpa [basicPiece, hc] using escape_short he tail
  | plain hp hb _ => simp [basicPiece, hb, hp]
  | control hp => simpa [basicPiece, escape, shortEscapes] using codePoint_control hp tail

theorem eq_cons (h : WrittenAs c w) : ∃ d ds, w = d :: ds ∧ isPlain d = true ∧ d ≠ quote := by
  cases h with
  | short => exact ⟨_, _, rfl, by decide, by decide⟩
  | plain hp _ hq => exact ⟨_, _, rfl, hp, hq⟩
  | control => exact ⟨_, _, rfl, by decide, by decide⟩

theorem joinedLine?_eq_none (h : WrittenAs c w) (tail : List Char) :
    joinedLine? (w ++ tail) = none := by
  cases h with
  | @short e he _ =>
    have hblank : ∀ e ∈ shortEscapes, isBlank e.1 = false ∧ isPlain e.1 = true := by decide
    obtain ⟨hb, hp⟩ := hblank e he
    simp [joinedLine?, skipBlanks, hb, afterLineEnd?_of_plain hp]
  | plain _ hb _ => simp [joinedLine?, hb]
  | control =>
    simp [joinedLine?, skipBlanks, show isBlank 'u' = false by decide,
      afterLineEnd?_of_plain (show isPlain 'u' = true by decide)]

theorem basicLinesPiece_eq (h : WrittenAs c w) (tail : List Char) :
    basicLinesPiece (w ++ tail) = some ([c], tail) := by
  have hpiece := h.basicPiece_eq tail
  have hjoined := h.joinedLine?_eq_none tail
  obtain ⟨d, ds, rfl, hp, _⟩ := h.eq_cons
  rw [List.cons_append] at hpiece hjoined ⊢
  simp [basicLinesPiece, hjoined, orLineEnd, afterLineEnd?_of_plain hp, hpiece]

end WrittenAs

/-! The two forms on one line. -/

theorem closeOne_of_ne {mark c : Char} (h : c ≠ mark) (cs : List Char) :
    closeOne mark (c :: cs) = none := by
  simp [closeOne, h]

theorem reads_basic (cs rest : List Char) :
    Reads (closeOne quote) basicPiece (writeBasic cs ++ quote :: rest) cs rest := by
  induction cs with
  | nil => exact .closed (by simp [writeBasic, closeOne])
  | cons c cs ih =>
    by_cases hq : c = quote
    · subst hq
      simp only [writeBasic, if_true, List.cons_append]
      refine .next (s := [quote]) (closeOne_of_ne (by decide) _) ?_ ?_ ih
      · exact escape_short (e := ('"', '"')) (by decide) _
      · simp only [List.length_cons]
        omega
    · have hw := writtenAs hq
      simp only [writeBasic, hq, if_false, List.append_assoc]
      have hpiece := hw.basicPiece_eq (writeBasic cs ++ quote :: rest)
      obtain ⟨d, ds, hd, _, hne⟩ := hw.eq_cons
      rw [hd, List.cons_append] at hpiece ⊢
      refine .next (s := [c]) (closeOne_of_ne hne _) hpiece ?_ ih
      simp only [List.length_cons, List.length_append]
      omega

theorem reads_literal {cs : List Char} (rest : List Char)
    (h : ∀ c ∈ cs, isPlain c = true ∧ c ≠ apostrophe) :
    Reads (closeOne apostrophe) literalPiece (cs ++ apostrophe :: rest) cs rest := by
  induction cs with
  | nil => exact .closed (by simp [closeOne])
  | cons c cs ih =>
    obtain ⟨⟨hp, hne⟩, hcs⟩ := List.forall_mem_cons.mp h
    refine .next (s := [c]) (closeOne_of_ne hne _) ?_ ?_ (ih hcs)
    · simp [literalPiece, hp]
    · simp

/-! The two forms on several lines. -/

/-- Up to two marks right before the closing ones belong to the text. -/
theorem closeThree_append {mark : Char} {w rest : List Char} (hw : ¬ [mark, mark, mark] <+: w)
    (hrest : rest.head? ≠ some mark) :
    closeThree mark (w ++ (List.replicate 3 mark ++ rest)) =
      if w.all (fun c => c = mark) then some (w, rest) else none := by
  have hstop : rest.takeWhile (fun d => d = mark) = [] := by
    cases rest with
    | nil => rfl
    | cons d ds =>
      have hd : d ≠ mark := by simpa using hrest
      simp [hd]
  match w with
  | [] => simp [closeThree, List.replicate, hstop]
  | [a] => by_cases ha : a = mark <;> simp [closeThree, List.replicate, hstop, ha]
  | [a, b] =>
    by_cases ha : a = mark <;> by_cases hb : b = mark <;>
      simp [closeThree, List.replicate, hstop, ha, hb]
  | a :: b :: c :: w =>
    have hne : ¬ (a = mark ∧ b = mark ∧ c = mark) := by
      rintro ⟨rfl, rfl, rfl⟩
      exact hw (by simp)
    have hall : ¬ (a :: b :: c :: w).all (fun c => c = mark) = true := by
      intro h
      rw [List.all_eq_true] at h
      exact hne ⟨by simpa using h a (by simp), by simpa using h b (by simp),
        by simpa using h c (by simp)⟩
    rw [if_neg hall]
    simp [closeThree, hne]

theorem basicLinesPiece_of_plain {c : Char} (hp : isPlain c = true) (hb : c ≠ '\\')
    (tail : List Char) : basicLinesPiece (c :: tail) = some ([c], tail) := by
  simp [basicLinesPiece, joinedLine?, orLineEnd, basicPiece, hb, hp, afterLineEnd?_of_plain hp]

/-- What stands for a character that is no quotation mark: it does not start with one, and it is
read as the character. -/
theorem writeBasicLines_of_ne {c : Char} (hq : c ≠ quote) (run : Nat) (cs : List Char) :
    ∃ d ds, writeBasicLines run (c :: cs) = d :: ds ++ writeBasicLines 0 cs ∧ d ≠ quote ∧
      ∀ tail, basicLinesPiece (d :: ds ++ tail) = some ([c], tail) := by
  by_cases hn : c = '\n'
  · subst hn
    refine ⟨'\n', [], by simp [writeBasicLines, quote], by decide, ?_⟩
    intro tail
    simp [basicLinesPiece, joinedLine?, orLineEnd, afterLineEnd?]
  · have hw := writtenAs hq
    obtain ⟨d, ds, hd, _, hne⟩ := hw.eq_cons
    refine ⟨d, ds, by simp [writeBasicLines, hq, hn, hd], hne, ?_⟩
    intro tail
    rw [← hd]
    exact hw.basicLinesPiece_eq tail

theorem run_add_le_two {k run : Nat} {cs : List Char} (hrun : run ≤ 2)
    (h : List.replicate k quote <+: writeBasicLines run cs) : run + k ≤ 2 := by
  induction cs generalizing k run with
  | nil =>
    have hk : k = 0 := by simpa [writeBasicLines] using h
    omega
  | cons c cs ih =>
    obtain _ | k := k
    · exact hrun
    · rw [List.replicate_succ] at h
      by_cases hq : c = quote
      · subst hq
        by_cases h2 : run = 2
        · simp [writeBasicLines, h2, quote] at h
        · simp only [writeBasicLines, if_true, h2, if_false, List.cons_prefix_cons, true_and] at h
          have := ih (by omega) h
          omega
      · obtain ⟨d, ds, hd, hne, _⟩ := writeBasicLines_of_ne hq run cs
        rw [hd, List.cons_append, List.cons_prefix_cons] at h
        exact absurd h.1.symm hne

/-- If only quotation marks are written, none of them was escaped. -/
theorem writeBasicLines_eq_of_all {run : Nat} {cs : List Char}
    (h : ∀ d ∈ writeBasicLines run cs, d = quote) : writeBasicLines run cs = cs := by
  induction cs generalizing run with
  | nil => rfl
  | cons c cs ih =>
    by_cases hq : c = quote
    · subst hq
      by_cases h2 : run = 2
      · have := h '\\' (by simp [writeBasicLines, h2])
        exact absurd this (by decide)
      · simp only [writeBasicLines, if_true, h2, if_false] at h ⊢
        rw [ih (List.forall_mem_cons.mp h).2]
    · obtain ⟨d, ds, hd, hne, _⟩ := writeBasicLines_of_ne hq run cs
      rw [hd, List.cons_append] at h
      exact absurd (h d List.mem_cons_self) hne

theorem reads_basicLines {rest : List Char} (hrest : rest.head? ≠ some quote) {run : Nat}
    (hrun : run ≤ 2) (cs : List Char) :
    Reads (closeThree quote) basicLinesPiece
      (writeBasicLines run cs ++ (List.replicate 3 quote ++ rest)) cs rest := by
  induction cs generalizing run with
  | nil =>
    refine .closed ?_
    simpa [writeBasicLines] using closeThree_append (w := []) (by simp) hrest
  | cons c cs ih =>
    have hshort : ¬ [quote, quote, quote] <+: writeBasicLines run (c :: cs) := by
      intro h
      have := run_add_le_two (k := 3) hrun h
      omega
    have hclose := closeThree_append hshort hrest
    by_cases hall : (writeBasicLines run (c :: cs)).all (fun d => d = quote) = true
    · rw [if_pos hall] at hclose
      exact .closed (hclose.trans (by rw [writeBasicLines_eq_of_all (by simpa using hall)]))
    · rw [if_neg hall] at hclose
      by_cases hq : c = quote
      · subst hq
        by_cases h2 : run = 2
        · simp only [writeBasicLines, if_true, h2, List.cons_append] at hclose ⊢
          refine .next (s := [quote]) hclose ?_ ?_ (ih (Nat.zero_le 2))
          · exact (WrittenAs.short (e := ('"', '"')) (by decide) rfl).basicLinesPiece_eq _
          · simp only [List.length_cons]
            omega
        · simp only [writeBasicLines, if_true, h2, if_false, List.cons_append] at hclose ⊢
          refine .next (s := [quote]) hclose ?_ ?_ (@ih (run + 1) (by omega))
          · exact basicLinesPiece_of_plain (c := quote) (by decide) (by decide) _
          · simp only [List.length_cons]
            omega
      · obtain ⟨d, ds, hd, _, hpiece⟩ := writeBasicLines_of_ne hq run cs
        rw [hd, List.append_assoc] at hclose ⊢
        refine .next (s := [c]) hclose (hpiece _) ?_ (ih (Nat.zero_le 2))
        simp only [List.cons_append, List.length_cons, List.length_append]
        omega

theorem longestRun_mono {mark : Char} {cs : List Char} {run run' : Nat} (h : run ≤ run') :
    longestRun mark run cs ≤ longestRun mark run' cs := by
  induction cs generalizing run run' with
  | nil => exact h
  | cons c cs ih =>
    rw [longestRun, longestRun]
    split
    · exact ih (Nat.succ_le_succ h)
    · exact Nat.max_le.mpr ⟨Nat.le_trans h (Nat.le_max_left _ _), Nat.le_max_right _ _⟩

theorem longestRun_le_cons (mark c : Char) (run : Nat) (cs : List Char) :
    longestRun mark 0 cs ≤ longestRun mark run (c :: cs) := by
  rw [longestRun]
  split
  · exact longestRun_mono (Nat.zero_le _)
  · exact Nat.le_max_right _ _

theorem le_longestRun (mark : Char) (run : Nat) (cs : List Char) :
    run ≤ longestRun mark run cs := by
  induction cs generalizing run with
  | nil => exact Nat.le_refl run
  | cons c cs ih =>
    rw [longestRun]
    split
    · exact Nat.le_of_succ_le (ih (run + 1))
    · exact Nat.le_max_left _ _

theorem add_le_longestRun {mark : Char} {k : Nat} {cs : List Char} (run : Nat)
    (h : List.replicate k mark <+: cs) : run + k ≤ longestRun mark run cs := by
  induction k generalizing run cs with
  | zero => exact le_longestRun mark run cs
  | succ k ih =>
    cases cs with
    | nil => simp [List.replicate_succ] at h
    | cons c cs =>
      rw [List.replicate_succ, List.cons_prefix_cons] at h
      obtain ⟨rfl, h⟩ := h
      have := ih (run + 1) h
      simp only [longestRun, if_true]
      omega

theorem reads_literalLines {rest : List Char} (hrest : rest.head? ≠ some apostrophe)
    {cs : List Char} (hplain : ∀ c ∈ cs, isPlain c = true ∨ c = '\n')
    (hrun : longestRun apostrophe 0 cs ≤ 2) :
    Reads (closeThree apostrophe) (orLineEnd literalPiece)
      (cs ++ (List.replicate 3 apostrophe ++ rest)) cs rest := by
  induction cs with
  | nil =>
    refine .closed ?_
    simpa using closeThree_append (w := []) (by simp) hrest
  | cons c cs ih =>
    obtain ⟨hc, hcs⟩ := List.forall_mem_cons.mp hplain
    have hshort : ¬ [apostrophe, apostrophe, apostrophe] <+: c :: cs := by
      intro h
      have := add_le_longestRun (k := 3) 0 h
      omega
    have hclose := closeThree_append hshort hrest
    by_cases hall : (c :: cs).all (fun d => d = apostrophe) = true
    · rw [if_pos hall] at hclose
      exact .closed hclose
    · rw [if_neg hall] at hclose
      have htail := longestRun_le_cons apostrophe c 0 cs
      refine .next (s := [c]) hclose ?_ (by simp) (ih hcs (Nat.le_trans htail hrun))
      rcases hc with hc | rfl
      · simp [orLineEnd, afterLineEnd?_of_plain hc, literalPiece, hc]
      · simp [orLineEnd, afterLineEnd?]

/-! Telling the forms apart by what they start with. -/

theorem afterThree?_of_ne {mark c : Char} (h : c ≠ mark) (cs : List Char) :
    afterThree? mark (c :: cs) = none := by
  match cs with
  | [] => rfl
  | [_] => rfl
  | _ :: _ :: _ => simp [afterThree?, h]

theorem afterThree?_of_second_ne {mark c d : Char} (h : d ≠ mark) (cs : List Char) :
    afterThree? mark (c :: d :: cs) = none := by
  cases cs with
  | nil => rfl
  | cons => simp [afterThree?, h]

theorem afterThree?_three (mark : Char) (cs : List Char) :
    afterThree? mark (mark :: mark :: mark :: cs) = some cs := by
  simp [afterThree?]

/-- Two marks that open and close an empty text are not the first two of three. -/
theorem afterThree?_pair {mark : Char} {rest : List Char} (h : rest.head? ≠ some mark) :
    afterThree? mark (mark :: mark :: rest) = none := by
  cases rest with
  | nil => rfl
  | cons d ds =>
    have hd : d ≠ mark := by simpa using h
    simp [afterThree?, hd]

theorem quoted_basic {rest : List Char} (hrest : rest.head? ≠ some quote) (cs : List Char) :
    quoted (Form.basic.write cs ++ rest) = some (cs, rest) := by
  have hread : basic (writeBasic cs ++ quote :: rest) = some (cs, rest) :=
    (reads_basic cs rest).upTo_eq
  have hthree : afterThree? quote (quote :: (writeBasic cs ++ quote :: rest)) = none := by
    cases cs with
    | nil => exact afterThree?_pair hrest
    | cons c cs =>
      by_cases hq : c = quote
      · simp only [writeBasic, hq, if_true, List.cons_append]
        exact afterThree?_of_second_ne (by decide) _
      · obtain ⟨d, ds, hd, _, hne⟩ := (writtenAs hq).eq_cons
        simp only [writeBasic, hq, if_false, hd, List.cons_append]
        exact afterThree?_of_second_ne hne _
  have hform : Form.basic.write cs ++ rest = quote :: (writeBasic cs ++ quote :: rest) := by
    simp [Form.write]
  have hother : afterThree? apostrophe (quote :: (writeBasic cs ++ quote :: rest)) = none :=
    afterThree?_of_ne (by decide) _
  simp [hform, quoted, hthree, hother, quotedLine, hread]

theorem quoted_literal {rest : List Char} (hrest : rest.head? ≠ some apostrophe) {cs : List Char}
    (h : ∀ c ∈ cs, isPlain c = true ∧ c ≠ apostrophe) :
    quoted (Form.literal.write cs ++ rest) = some (cs, rest) := by
  have hread : literal (cs ++ apostrophe :: rest) = some (cs, rest) :=
    (reads_literal rest h).upTo_eq
  have hthree : afterThree? apostrophe (apostrophe :: (cs ++ apostrophe :: rest)) = none := by
    cases cs with
    | nil => exact afterThree?_pair hrest
    | cons c cs => exact afterThree?_of_second_ne (h c List.mem_cons_self).2 _
  have hform : Form.literal.write cs ++ rest = apostrophe :: (cs ++ apostrophe :: rest) := by
    simp [Form.write]
  have hother : afterThree? quote (apostrophe :: (cs ++ apostrophe :: rest)) = none :=
    afterThree?_of_ne (by decide) _
  simp [hform, quoted, hthree, hother, quotedLine, hread, show apostrophe ≠ quote by decide]

theorem dropFirstLineEnd_append {cs : List Char} {w : List Char}
    (h : '\n' ∉ cs → afterLineEnd? w = none) :
    dropFirstLineEnd (firstLineEnd cs ++ w) = w := by
  by_cases hn : '\n' ∈ cs
  · simp [firstLineEnd, hn, dropFirstLineEnd, afterLineEnd?]
  · simp [firstLineEnd, hn, dropFirstLineEnd, h hn]

theorem quoted_basicLines {rest : List Char} (hrest : rest.head? ≠ some quote) (cs : List Char) :
    quoted (Form.basicLines.write cs ++ rest) = some (cs, rest) := by
  have hread := (reads_basicLines hrest (Nat.zero_le 2) cs).upTo_eq
  have hfirst : '\n' ∉ cs →
      afterLineEnd? (writeBasicLines 0 cs ++ (List.replicate 3 quote ++ rest)) = none := by
    intro hn
    cases cs with
    | nil => exact afterLineEnd?_of_plain (c := quote) (by decide) _
    | cons c cs =>
      by_cases hq : c = quote
      · simp only [writeBasicLines, hq, if_true]
        exact afterLineEnd?_of_plain (c := quote) (by decide) _
      · have hc : c ≠ '\n' := fun h => hn (h ▸ List.mem_cons_self)
        obtain ⟨d, ds, hd, hp, _⟩ := (writtenAs hq).eq_cons
        simp only [writeBasicLines, hq, hc, if_false, hd, List.cons_append]
        exact afterLineEnd?_of_plain hp _
  have hform : Form.basicLines.write cs ++ rest = quote :: quote :: quote ::
      (firstLineEnd cs ++ (writeBasicLines 0 cs ++ (List.replicate 3 quote ++ rest))) := by
    simp [Form.write, List.replicate]
  simp only [hform, quoted, afterThree?_three, basicLines, dropFirstLineEnd_append hfirst, hread]

theorem quoted_literalLines {rest : List Char} (hrest : rest.head? ≠ some apostrophe)
    {cs : List Char} (hplain : ∀ c ∈ cs, isPlain c = true ∨ c = '\n')
    (hrun : longestRun apostrophe 0 cs ≤ 2) :
    quoted (Form.literalLines.write cs ++ rest) = some (cs, rest) := by
  have hread := (reads_literalLines hrest hplain hrun).upTo_eq
  have hfirst : '\n' ∉ cs →
      afterLineEnd? (cs ++ (List.replicate 3 apostrophe ++ rest)) = none := by
    intro hn
    cases cs with
    | nil => exact afterLineEnd?_of_plain (c := apostrophe) (by decide) _
    | cons c cs =>
      obtain ⟨hc, _⟩ := List.forall_mem_cons.mp hplain
      have hne : c ≠ '\n' := fun h => hn (h ▸ List.mem_cons_self)
      exact afterLineEnd?_of_plain (hc.resolve_right hne) _
  have hform : Form.literalLines.write cs ++ rest = apostrophe :: apostrophe :: apostrophe ::
      (firstLineEnd cs ++ (cs ++ (List.replicate 3 apostrophe ++ rest))) := by
    simp [Form.write, List.replicate]
  have hother : afterThree? quote (apostrophe :: apostrophe :: apostrophe ::
      (firstLineEnd cs ++ (cs ++ (List.replicate 3 apostrophe ++ rest)))) = none :=
    afterThree?_of_ne (by decide) _
  simp only [hform, quoted, hother, afterThree?_three, literalLines,
    dropFirstLineEnd_append hfirst, hread]

theorem plain_of_form {cs : List Char} (h : cs.any needsEscape = false) :
    ∀ c ∈ cs, isPlain c = true ∨ c = '\n' := by
  intro c hc
  have hn := List.any_eq_false.mp h c hc
  simp only [needsEscape, Bool.and_eq_true, Bool.not_eq_true', bne_iff_ne, not_and,
    not_not] at hn
  by_cases hp : isPlain c = true
  · exact .inl hp
  · exact .inr (hn (by simpa using hp))

theorem not_mem_of_longestRun {mark : Char} {cs : List Char} (h : longestRun mark 0 cs = 0) :
    mark ∉ cs := by
  induction cs with
  | nil => exact List.not_mem_nil
  | cons c cs ih =>
    have htail := longestRun_le_cons mark c 0 cs
    rw [h] at htail
    rw [List.mem_cons, not_or]
    refine ⟨?_, ih (Nat.le_zero.mp htail)⟩
    rintro rfl
    have hone : List.replicate 1 mark <+: mark :: cs := by simp
    have := add_le_longestRun 0 hone
    omega

theorem Form.of_eq_literal {cs : List Char} (h : Form.of cs = .literal) :
    cs.any needsEscape = false ∧ longestRun apostrophe 0 cs = 0 ∧ '\n' ∉ cs := by
  unfold Form.of at h
  simp only at h
  split_ifs at h with h₁ h₂
  simpa [and_assoc] using h₂

theorem Form.of_eq_literalLines {cs : List Char} (h : Form.of cs = .literalLines) :
    cs.any needsEscape = false ∧ longestRun apostrophe 0 cs ≤ 2 := by
  unfold Form.of at h
  simp only at h
  split_ifs at h with h₁ h₂ h₃ h₄
  simpa using h₄

/-- Reading undoes writing, whatever the text is, if no mark follows. -/
theorem quoted_writeQuoted {rest : List Char} (hq : rest.head? ≠ some quote)
    (ha : rest.head? ≠ some apostrophe) (cs : List Char) :
    quoted (writeQuoted cs ++ rest) = some (cs, rest) := by
  rw [writeQuoted]
  cases hf : Form.of cs with
  | basic => exact quoted_basic hq cs
  | literal =>
    obtain ⟨hescapes, hrun, hn⟩ := Form.of_eq_literal hf
    refine quoted_literal ha fun c hc => ⟨?_, ?_⟩
    · exact (plain_of_form hescapes c hc).resolve_right fun h => hn (h ▸ hc)
    · exact fun h => not_mem_of_longestRun hrun (h ▸ hc)
  | basicLines => exact quoted_basicLines hq cs
  | literalLines =>
    obtain ⟨hescapes, hrun⟩ := Form.of_eq_literalLines hf
    exact quoted_literalLines ha (plain_of_form hescapes) hrun

end Toml
end StatefulPipeline
