import Mathlib.Data.List.Basic
import StatefulPipeline.Proofs.QuotedText
import StatefulPipeline.Toml.Document
import StatefulPipeline.Toml.Written

/-! Written lines are read back. Each value is told by the character it starts with; a numeral has
no leading zero, and the line end after it keeps the readers of floats, dates and times off. A key
that is written bare ends where a blank, a point or a bracket follows it. -/

namespace StatefulPipeline
namespace Toml

theorem mark_of_ne {c d : Char} (h : d ≠ c) (cs : List Char) : mark c (d :: cs) = none := by
  simp [mark, h]

@[simp] theorem mark_self (c : Char) (cs : List Char) : mark c (c :: cs) = some cs := by
  simp [mark]

theorem skipBlanks_cons {c : Char} (h : isBlank c = false) (cs : List Char) :
    skipBlanks (c :: cs) = c :: cs := by
  simp [skipBlanks, h]

theorem word?_of_ne {w c : Char} (h : w ≠ c) (ws cs : List Char) :
    word? (w :: ws) (c :: cs) = none := by
  simp [word?, h]

theorem word?_append (ws cs : List Char) : word? ws (ws ++ cs) = some cs := by
  induction ws with
  | nil => rfl
  | cons w ws ih => simpa [word?] using ih

theorem quoted_of_ne {c : Char} (hq : c ≠ quote) (ha : c ≠ apostrophe) (cs : List Char) :
    quoted (c :: cs) = none := by
  simp [quoted, afterThree?_of_ne hq, afterThree?_of_ne ha, quotedLine, hq, ha]

theorem value_of_ne {c : Char} (hl : c ≠ '[') (hb : c ≠ '\x7b') (depth : Nat) (cs : List Char) :
    value depth (c :: cs) = scalar (c :: cs) := by
  cases depth with
  | zero => rfl
  | succ depth => simp [value, mark_of_ne hl, mark_of_ne hb]

/-! Texts. -/

theorem writeQuoted_eq_cons (cs : List Char) :
    ∃ d ds, writeQuoted cs = d :: ds ∧ (d = quote ∨ d = apostrophe) := by
  rw [writeQuoted]
  cases Form.of cs with
  | basic => exact ⟨_, _, rfl, .inl rfl⟩
  | literal => exact ⟨_, _, rfl, .inr rfl⟩
  | basicLines => exact ⟨_, _, rfl, .inl rfl⟩
  | literalLines => exact ⟨_, _, rfl, .inr rfl⟩

theorem value_text {rest : List Char} (hq : rest.head? ≠ some quote)
    (ha : rest.head? ≠ some apostrophe) (depth : Nat) (s : String) :
    value depth (writeQuoted s.toList ++ rest) = some (.text s, rest) := by
  have hread := quoted_writeQuoted hq ha s.toList
  obtain ⟨d, ds, hd, hmark⟩ := writeQuoted_eq_cons s.toList
  have hl : d ≠ '[' := by rcases hmark with rfl | rfl <;> decide
  have hb : d ≠ '\x7b' := by rcases hmark with rfl | rfl <;> decide
  rw [hd, List.cons_append] at hread ⊢
  rw [value_of_ne hl hb, scalar, hread]
  simp

/-! Numbers. -/

theorem ne_of_isDigit {c d : Char} (hc : c.isDigit = true) (hd : d.isDigit = false) : c ≠ d := by
  rintro rfl
  simp [hc] at hd

theorem head?_decimal {n : Nat} (h : 0 < n) : (Numeral.decimal n).head? ≠ some '0' := by
  induction n using Nat.strongRecOn with
  | ind n ih =>
    have hdigit : ∀ k < 10, 0 < k → k.digitChar ≠ '0' := by decide
    rw [Numeral.decimal, Nat.toDigits_eq_if (by decide)]
    split
    · rename_i hlt
      simpa using hdigit n hlt h
    · have hrec := ih (n / 10) (by omega) (by omega)
      obtain ⟨c, cs, hc⟩ := List.exists_cons_of_ne_nil (Numeral.decimal_ne_nil (n / 10))
      rw [Numeral.decimal] at hc hrec
      simpa [hc] using hrec

theorem hexDigit?_of_isDigit {c : Char} (h : c.isDigit = true) :
    hexDigit? c = some (c.toNat - 48) := by
  simp [hexDigit?, h]

theorem ofDigits_decimal (n : Nat) : ofDigits 10 (Numeral.decimal n) = n := by
  have hfold : ofDigits 10 (Numeral.decimal n) = Nat.ofDigitChars 10 (Numeral.decimal n) 0 := by
    rw [Nat.ofDigitChars_eq_foldl]
    refine List.foldl_ext _ _ _ fun m c hc => ?_
    rw [hexDigit?_of_isDigit (Numeral.isDigit_of_mem_decimal hc)]
    rfl
  rw [hfold]
  exact Nat.ofDigitChars_ten_toDigits

section Numerals

variable {ds : List Char} (hds : ∀ c ∈ ds, c.isDigit = true) (tail : List Char)
include hds

theorem digitRun_append : digitRun Char.isDigit (ds ++ '\n' :: tail) = (ds, '\n' :: tail) := by
  induction ds with
  | nil => simp [digitRun, show Char.isDigit '\n' = false by decide]
  | cons c ds ih =>
    obtain ⟨hc, hds⟩ := List.forall_mem_cons.mp hds
    simp [digitRun, hc, ih hds]

theorem mark_append {c : Char} (hc : c.isDigit = false) (hn : c ≠ '\n') :
    mark c (ds ++ '\n' :: tail) = none := by
  cases ds with
  | nil => exact mark_of_ne hn.symm _
  | cons d ds => exact mark_of_ne (ne_of_isDigit (hds d List.mem_cons_self) hc) _

theorem fixedDigits_append {count value n : Nat} {rest : List Char}
    (h : fixedDigits count value (ds ++ '\n' :: tail) = some (n, rest)) :
    ∃ es, (∀ c ∈ es, c.isDigit = true) ∧ rest = es ++ '\n' :: tail := by
  induction count generalizing value ds with
  | zero =>
    simp only [fixedDigits, Option.some.injEq, Prod.mk.injEq] at h
    exact ⟨ds, hds, h.2.symm⟩
  | succ count ih =>
    cases ds with
    | nil => simp [fixedDigits, show Char.isDigit '\n' = false by decide] at h
    | cons c ds =>
      obtain ⟨hc, hds⟩ := List.forall_mem_cons.mp hds
      rw [List.cons_append, fixedDigits, if_pos hc] at h
      exact ih hds h

theorem date_append : date (ds ++ '\n' :: tail) = none := by
  rw [date]
  cases h : fixedDigits 4 0 (ds ++ '\n' :: tail) with
  | none => rfl
  | some r =>
    obtain ⟨es, hes, hrest⟩ := fixedDigits_append hds tail h
    simp [hrest, mark_append hes tail (c := '-') (by decide) (by decide)]

theorem time_append : time (ds ++ '\n' :: tail) = none := by
  rw [time]
  cases h : twoDigits 0 23 (ds ++ '\n' :: tail) with
  | none => rfl
  | some r =>
    rw [twoDigits] at h
    cases hf : fixedDigits 2 0 (ds ++ '\n' :: tail) with
    | none => simp [hf] at h
    | some r' =>
      obtain ⟨es, hes, hrest⟩ := fixedDigits_append hds tail hf
      have hr : r.2 = es ++ '\n' :: tail := by
        simp only [hf] at h
        split at h
        · rw [← Option.some.inj h]
          exact hrest
        · exact absurd h (by simp)
      simp [hr, mark_append hes tail (c := ':') (by decide) (by decide)]

end Numerals

theorem word?_decimal {w : Char} (hw : w.isDigit = false) (ws : List Char) (n : Nat)
    (rest : List Char) : word? (w :: ws) (Numeral.decimal n ++ rest) = none := by
  obtain ⟨c, cs, hc, hdigit⟩ := Numeral.decimal_eq_cons n
  rw [hc]
  exact word?_of_ne (ne_of_isDigit hdigit hw).symm _ _

theorem sign_decimal (n : Nat) (rest : List Char) :
    sign (Numeral.decimal n ++ rest) = (false, Numeral.decimal n ++ rest) := by
  obtain ⟨c, cs, hc, hdigit⟩ := Numeral.decimal_eq_cons n
  have hminus : c ≠ '-' := ne_of_isDigit hdigit (by decide)
  have hplus : c ≠ '+' := ne_of_isDigit hdigit (by decide)
  simp [hc, sign, hminus, hplus]

theorem unsignedDecimal_decimal (n : Nat) (tail : List Char) :
    unsignedDecimal (Numeral.decimal n ++ '\n' :: tail) =
      some (Numeral.decimal n, '\n' :: tail) := by
  rcases Nat.eq_zero_or_pos n with rfl | hn
  · rfl
  · have hhead := head?_decimal hn
    have hrun := digitRun_append (fun _ hc => Numeral.isDigit_of_mem_decimal (n := n) hc) tail
    obtain ⟨c, cs, hc, hdigit⟩ := Numeral.decimal_eq_cons n
    rw [hc] at hhead hrun ⊢
    have hne : c ≠ '0' := by simpa using hhead
    rw [List.cons_append] at hrun ⊢
    simp [unsignedDecimal, hne, digits, hdigit, hrun]

/-- No letter of a base follows a zero that is written. -/
theorem basedInteger_decimal (n : Nat) (tail : List Char) :
    basedInteger (Numeral.decimal n ++ '\n' :: tail) = none := by
  rcases Nat.eq_zero_or_pos n with rfl | hn
  · rfl
  · have hhead := head?_decimal hn
    obtain ⟨c, cs, hc, _⟩ := Numeral.decimal_eq_cons n
    have hne : c ≠ '0' := by simpa [hc] using hhead
    rw [hc]
    cases cs <;> simp [basedInteger, hne]

theorem integer_decimal {n : Nat} (hn : n < Nat.pow 2 63) (tail : List Char) :
    integer (Numeral.decimal n ++ '\n' :: tail) = some ((n : Int), '\n' :: tail) := by
  have hbound : -(Nat.pow 2 63 : Int) ≤ (n : Int) ∧ (n : Int) < Nat.pow 2 63 := by
    simp only [Nat.pow_eq] at hn ⊢
    omega
  simp only [integer, basedInteger_decimal, decimalInteger, sign_decimal,
    unsignedDecimal_decimal, ofDigits_decimal]
  exact if_pos hbound

theorem float_decimal (n : Nat) (tail : List Char) :
    float (Numeral.decimal n ++ '\n' :: tail) = none := by
  have hinf := word?_decimal (w := 'i') (by decide) ['n', 'f'] n ('\n' :: tail)
  have hnan := word?_decimal (w := 'n') (by decide) ['a', 'n'] n ('\n' :: tail)
  have hdecimal : decimalFloat (Numeral.decimal n ++ '\n' :: tail) = none := by
    simp [decimalFloat, sign_decimal, unsignedDecimal_decimal, exponent, fraction]
  simp only [float, hdecimal, specialFloat, sign_decimal]
  simp [hinf, hnan]

theorem value_number {n : Nat} (hn : n < Nat.pow 2 63) (depth : Nat) (tail : List Char) :
    value depth (Numeral.decimal n ++ '\n' :: tail) = some (.integer n, '\n' :: tail) := by
  have hdigits : ∀ c ∈ Numeral.decimal n, c.isDigit = true :=
    fun _ => Numeral.isDigit_of_mem_decimal
  have htrue := word?_decimal (w := 't') (by decide) ['r', 'u', 'e'] n ('\n' :: tail)
  have hfalse := word?_decimal (w := 'f') (by decide) ['a', 'l', 's', 'e'] n ('\n' :: tail)
  have hmoment : moment (Numeral.decimal n ++ '\n' :: tail) = none := by
    simp [moment, date_append hdigits, time_append hdigits]
  have hquoted : quoted (Numeral.decimal n ++ '\n' :: tail) = none := by
    obtain ⟨c, cs, hc, hdigit⟩ := Numeral.decimal_eq_cons n
    rw [hc]
    exact quoted_of_ne (ne_of_isDigit hdigit (by decide)) (ne_of_isDigit hdigit (by decide)) _
  have hscalar : value depth (Numeral.decimal n ++ '\n' :: tail) =
      scalar (Numeral.decimal n ++ '\n' :: tail) := by
    obtain ⟨c, cs, hc, hdigit⟩ := Numeral.decimal_eq_cons n
    rw [hc]
    exact value_of_ne (ne_of_isDigit hdigit (by decide)) (ne_of_isDigit hdigit (by decide)) _ _
  rw [hscalar, scalar, hquoted]
  simp [htrue, hfalse, hmoment, float_decimal, integer_decimal hn]

/-! Truth values. -/

theorem value_flag (b : Bool) (depth : Nat) (tail : List Char) :
    value depth ((Setting.flag b).write ++ '\n' :: tail) = some (.boolean b, '\n' :: tail) := by
  cases b with
  | true =>
    have htext : (Setting.flag true).write ++ '\n' :: tail =
        't' :: 'r' :: 'u' :: 'e' :: '\n' :: tail := by simp [Setting.write]
    rw [htext, value_of_ne (by decide) (by decide), scalar, quoted_of_ne (by decide) (by decide)]
    simp [word?]
  | false =>
    have htext : (Setting.flag false).write ++ '\n' :: tail =
        'f' :: 'a' :: 'l' :: 's' :: 'e' :: '\n' :: tail := by simp [Setting.write]
    rw [htext, value_of_ne (by decide) (by decide), scalar, quoted_of_ne (by decide) (by decide)]
    simp [word?]

/-! Lists of texts. -/

theorem skipSpace_writeQuoted (cs rest : List Char) :
    skipSpace false (writeQuoted cs ++ rest) = writeQuoted cs ++ rest := by
  obtain ⟨d, ds, hd, rfl | rfl⟩ := writeQuoted_eq_cons cs
  · simp [hd, skipSpace, quote, isBlank]
  · simp [hd, skipSpace, apostrophe, isBlank]

theorem mark_writeQuoted (cs rest : List Char) : mark ']' (writeQuoted cs ++ rest) = none := by
  obtain ⟨d, ds, hd, rfl | rfl⟩ := writeQuoted_eq_cons cs
  · rw [hd]
    exact mark_of_ne (by decide) _
  · rw [hd]
    exact mark_of_ne (by decide) _

theorem items_single (fuel depth : Nat) (s : String) (rest : List Char) :
    items (value depth) (fuel + 1) (writeQuoted s.toList ++ ']' :: rest) =
      some ([.text s], rest) := by
  have hread : value depth (writeQuoted s.toList ++ ']' :: rest) = some (.text s, ']' :: rest) :=
    value_text (by simp [quote]) (by simp [apostrophe]) depth s
  have hspace : skipSpace false (']' :: rest) = ']' :: rest := by simp [skipSpace, isBlank]
  simp only [items, skipSpace_writeQuoted, mark_writeQuoted, hread, hspace, mark_self]

/-- One text to a line; the line end that precedes a line is read with it. -/
theorem items_lines (depth : Nat) (rest : List Char) (ss : List String) {fuel : Nat}
    (hf : ss.length < fuel) :
    items (value depth) fuel ('\n' :: ((ss.flatMap fun s =>
        "    ".toList ++ writeQuoted s.toList ++ ",\n".toList) ++ ']' :: rest)) =
      some (ss.map .text, rest) := by
  induction ss generalizing fuel with
  | nil =>
    obtain _ | fuel := fuel
    · exact absurd hf (Nat.not_lt_zero _)
    · simp [items, skipSpace, isBlank]
  | cons s ss ih =>
    obtain _ | fuel := fuel
    · exact absurd hf (Nat.not_lt_zero _)
    · have hrec := @ih fuel (by simpa using hf)
      generalize hlater : ((ss.flatMap fun s =>
        "    ".toList ++ writeQuoted s.toList ++ ",\n".toList) ++ ']' :: rest) = later at hrec
      have hspace : skipSpace false ('\n' :: ("    ".toList ++
          (writeQuoted s.toList ++ ',' :: '\n' :: later))) =
            writeQuoted s.toList ++ ',' :: '\n' :: later := by
        simp [skipSpace, isBlank, skipSpace_writeQuoted]
      have hread : value depth (writeQuoted s.toList ++ ',' :: '\n' :: later) =
          some (.text s, ',' :: '\n' :: later) :=
        value_text (by simp [quote]) (by simp [apostrophe]) depth s
      have hcomma : skipSpace false (',' :: '\n' :: later) = ',' :: '\n' :: later := by
        simp [skipSpace, isBlank]
      have htext : '\n' :: (((s :: ss).flatMap fun s =>
          "    ".toList ++ writeQuoted s.toList ++ ",\n".toList) ++ ']' :: rest) =
            '\n' :: ("    ".toList ++ (writeQuoted s.toList ++ ',' :: '\n' :: later)) := by
        simp [← hlater]
      rw [htext]
      simp only [items, hspace, mark_writeQuoted, hread, hcomma, mark_self, hrec,
        mark_of_ne (show ',' ≠ ']' by decide), List.map_cons]

theorem length_le_lines (ss : List String) : ss.length ≤ (ss.flatMap fun s =>
    "    ".toList ++ writeQuoted s.toList ++ ",\n".toList).length := by
  induction ss with
  | nil => exact Nat.le_refl 0
  | cons s ss ih =>
    simp only [List.flatMap_cons, List.length_append, List.length_cons]
    have hline : 0 < "    ".toList.length := by decide
    omega

theorem value_list (ss : List String) (depth : Nat) (tail : List Char) :
    value (depth + 1) ((Setting.list ss).write ++ '\n' :: tail) =
      some (.array (ss.map .text), '\n' :: tail) := by
  match ss with
  | [] => simp [Setting.write, value, items, skipSpace, isBlank]
  | [s] =>
    have hread := items_single (writeQuoted s.toList ++ ']' :: '\n' :: tail).length depth s
      ('\n' :: tail)
    simp only [Setting.write, List.cons_append, List.append_assoc, List.nil_append, value,
      mark_self, hread]
    rfl
  | s :: t :: ss =>
    have hread := @items_lines depth ('\n' :: tail) (s :: t :: ss)
    generalize hbody : (((s :: t :: ss).flatMap fun s =>
      "    ".toList ++ writeQuoted s.toList ++ ",\n".toList) ++ ']' :: '\n' :: tail) = body at hread
    have hlength : (s :: t :: ss).length < ('\n' :: body).length + 1 := by
      have := length_le_lines (s :: t :: ss)
      simp only [← hbody, List.length_cons, List.length_append] at this ⊢
      omega
    have htext : (Setting.list (s :: t :: ss)).write ++ '\n' :: tail = '[' :: '\n' :: body := by
      simp [Setting.write, ← hbody]
    simp only [htext, value, mark_self, hread hlength]
    rfl

/-! Keys. -/

def IsBareKey (key : String) : Prop :=
  key.toList ≠ [] ∧ ∀ c ∈ key.toList, isBareKeyChar c = true

instance (key : String) : Decidable (IsBareKey key) :=
  decidable_of_iff (key.toList ≠ [] ∧ key.toList.all isBareKeyChar = true) (by simp [IsBareKey])

theorem ne_of_isBareKeyChar {c d : Char} (hc : isBareKeyChar c = true)
    (hd : isBareKeyChar d = false) : c ≠ d := by
  rintro rfl
  simp [hc] at hd

theorem isBlank_of_isBareKeyChar {c : Char} (h : isBareKeyChar c = true) : isBlank c = false := by
  have hspace : c ≠ ' ' := ne_of_isBareKeyChar h (by decide)
  have htab : c ≠ '\t' := ne_of_isBareKeyChar h (by decide)
  simp [isBlank, hspace, htab]

namespace IsBareKey

variable {key : String} (h : IsBareKey key)
include h

theorem eq_cons : ∃ c cs, key.toList = c :: cs ∧ isBareKeyChar c = true := by
  obtain ⟨c, cs, hc⟩ := List.exists_cons_of_ne_nil h.1
  exact ⟨c, cs, hc, h.2 c (by simp [hc])⟩

theorem skipBlanks_eq (rest : List Char) :
    skipBlanks (key.toList ++ rest) = key.toList ++ rest := by
  obtain ⟨c, cs, hc, hbare⟩ := h.eq_cons
  rw [hc]
  exact skipBlanks_cons (isBlank_of_isBareKeyChar hbare) _

theorem keyPart_eq {d : Char} (hd : isBareKeyChar d = false) (ds : List Char) :
    keyPart (key.toList ++ d :: ds) = some (key, d :: ds) := by
  have htake : (key.toList ++ d :: ds).takeWhile isBareKeyChar = key.toList := by
    rw [List.takeWhile_append_of_pos h.2]
    simp [hd]
  have hdrop : (key.toList ++ d :: ds).dropWhile isBareKeyChar = d :: ds := by
    rw [List.dropWhile_append_of_pos h.2]
    simp [hd]
  obtain ⟨c, cs, hc, _⟩ := h.eq_cons
  have hkey : String.ofList (c :: cs) = key := by rw [← hc, String.ofList_toList]
  rw [keyPart, htake, hdrop, hc]
  simp [hkey]

end IsBareKey

theorem dotted_singleton (key : String) : Written.dotted [key] = key.toList := by
  simp [Written.dotted]

theorem dotted_cons_cons (key key' : String) (path : List String) :
    Written.dotted (key :: key' :: path) = key.toList ++ '.' :: Written.dotted (key' :: path) := by
  simp [Written.dotted]

theorem dotted_eq_cons {path : List String} (hne : path ≠ [])
    (hpath : ∀ key ∈ path, IsBareKey key) :
    ∃ c cs, Written.dotted path = c :: cs ∧ isBareKeyChar c = true := by
  cases path with
  | nil => exact absurd rfl hne
  | cons key path =>
    obtain ⟨c, cs, hc, hbare⟩ := (List.forall_mem_cons.mp hpath).1.eq_cons
    cases path with
    | nil => exact ⟨c, cs, by rw [dotted_singleton, hc], hbare⟩
    | cons key' path => exact ⟨c, _, by rw [dotted_cons_cons, hc, List.cons_append], hbare⟩

theorem keyParts_dotted {d : Char} {ds : List Char} (hd : isBareKeyChar d = false)
    (hpoint : mark '.' (skipBlanks (d :: ds)) = none) {path : List String} (hne : path ≠ [])
    (hpath : ∀ key ∈ path, IsBareKey key) {count : Nat} (hcount : path.length ≤ count) :
    keyParts count (Written.dotted path ++ d :: ds) = some (path, skipBlanks (d :: ds)) := by
  induction path generalizing count with
  | nil => exact absurd rfl hne
  | cons key path ih =>
    obtain ⟨hkey, hpath⟩ := List.forall_mem_cons.mp hpath
    obtain _ | count := count
    · simp at hcount
    · cases path with
      | nil =>
        rw [dotted_singleton, keyParts, hkey.skipBlanks_eq, hkey.keyPart_eq hd]
        simp [hpoint]
      | cons key' path =>
        have hrec := @ih (by simp) hpath count (by simpa using hcount)
        rw [dotted_cons_cons, List.append_assoc, List.cons_append, keyParts, hkey.skipBlanks_eq,
          hkey.keyPart_eq (by decide)]
        simp [skipBlanks_cons (show isBlank '.' = false by decide), hrec]

/-! Lines. -/

/-- Values that fit what is read: integers have 64 bits. -/
def Setting.IsReadable : Setting → Prop
  | .number n => n < Nat.pow 2 63
  | _ => True

theorem value_write {v : Setting} (hv : v.IsReadable) (depth : Nat) (tail : List Char) :
    value (depth + 1) (v.write ++ '\n' :: tail) = some (v.node, '\n' :: tail) := by
  cases v with
  | text s => exact value_text (by simp [quote]) (by simp [apostrophe]) _ s
  | number n => exact value_number hv _ tail
  | flag b => exact value_flag b _ tail
  | list ss => exact value_list ss depth tail

theorem skipBlanks_write (v : Setting) (rest : List Char) :
    skipBlanks (v.write ++ rest) = v.write ++ rest := by
  cases v with
  | text s =>
    obtain ⟨d, ds, hd, hmark⟩ := writeQuoted_eq_cons s.toList
    have hblank : isBlank d = false := by rcases hmark with rfl | rfl <;> decide
    rw [Setting.write, hd]
    exact skipBlanks_cons hblank _
  | number n =>
    obtain ⟨c, cs, hc, hdigit⟩ := Numeral.decimal_eq_cons n
    have hbare : isBareKeyChar c = true := by simp [isBareKeyChar, Char.isAlphanum, hdigit]
    rw [Setting.write, hc]
    exact skipBlanks_cons (isBlank_of_isBareKeyChar hbare) _
  | flag b =>
    cases b with
    | true => exact skipBlanks_cons (c := 't') (by decide) _
    | false => exact skipBlanks_cons (c := 'f') (by decide) _
  | list ss =>
    rcases ss with _ | ⟨s, _ | ⟨t, ss⟩⟩ <;> exact skipBlanks_cons (c := '[') (by decide) _

def Written.IsReadable : Written → Prop
  | .setting key v => IsBareKey key ∧ v.IsReadable
  | .header _ path => path ≠ [] ∧ (∀ key ∈ path, IsBareKey key) ∧ path.length < depthLimit

theorem key_dotted {d : Char} {ds : List Char} (hd : isBareKeyChar d = false)
    (hpoint : mark '.' (skipBlanks (d :: ds)) = none) {path : List String} (hne : path ≠ [])
    (hpath : ∀ key ∈ path, IsBareKey key) (hlength : path.length < depthLimit) :
    key (Written.dotted path ++ d :: ds) = some (path, skipBlanks (d :: ds)) :=
  keyParts_dotted hd hpoint hne hpath (Nat.le_sub_one_of_lt hlength)

theorem line_setting {name : String} (hkey : IsBareKey name) {v : Setting} (hv : v.IsReadable)
    (tail : List Char) :
    line ((Written.setting name v).write ++ tail) = some (.pair [name] v.node, '\n' :: tail) := by
  have htext : (Written.setting name v).write ++ tail =
      Written.dotted [name] ++ ' ' :: '=' :: ' ' :: (v.write ++ '\n' :: tail) := by
    simp [Written.write, dotted_singleton]
  have hheader : header ((Written.setting name v).write ++ tail) = none := by
    obtain ⟨c, cs, hc, hbare⟩ := hkey.eq_cons
    have hne : c ≠ '[' := ne_of_isBareKeyChar hbare (by decide)
    rw [htext, dotted_singleton, hc, List.cons_append]
    simp [header, word?, hne.symm, mark_of_ne hne]
  have hblank : skipBlanks (' ' :: '=' :: ' ' :: (v.write ++ '\n' :: tail)) =
      '=' :: ' ' :: (v.write ++ '\n' :: tail) := by
    simp [skipBlanks, isBlank]
  have hpoint : mark '.' (skipBlanks (' ' :: '=' :: ' ' :: (v.write ++ '\n' :: tail))) = none := by
    rw [hblank]
    exact mark_of_ne (by decide) _
  have hpath : key (Written.dotted [name] ++ ' ' :: '=' :: ' ' :: (v.write ++ '\n' :: tail)) =
      some ([name], '=' :: ' ' :: (v.write ++ '\n' :: tail)) := by
    rw [← hblank]
    exact key_dotted (by decide) hpoint (by simp) (by simpa using hkey) (by simp [depthLimit])
  have hvalue : value (depthLimit - 1) (skipBlanks (' ' :: (v.write ++ '\n' :: tail))) =
      some (v.node, '\n' :: tail) := by
    have hskip : skipBlanks (' ' :: (v.write ++ '\n' :: tail)) = v.write ++ '\n' :: tail := by
      have hspace : skipBlanks (' ' :: (v.write ++ '\n' :: tail)) =
          skipBlanks (v.write ++ '\n' :: tail) := by
        simp [skipBlanks, isBlank]
      exact hspace.trans (skipBlanks_write v _)
    rw [hskip]
    exact value_write hv 78 tail
  rw [line, hheader, htext]
  simp [pair, hpath, hvalue]

theorem line_header {kind : HeaderKind} {path : List String} (hne : path ≠ [])
    (hpath : ∀ key ∈ path, IsBareKey key) (hlength : path.length < depthLimit)
    (tail : List Char) :
    line ((Written.header kind path).write ++ tail) = some (.header kind path, '\n' :: tail) := by
  have hblank (cs : List Char) : skipBlanks (']' :: cs) = ']' :: cs :=
    skipBlanks_cons (by decide) cs
  have hkey (cs : List Char) : key (Written.dotted path ++ ']' :: cs) = some (path, ']' :: cs) := by
    rw [key_dotted (by decide) (by simp [hblank, mark]) hne hpath hlength, hblank]
  suffices hheader : header ((Written.header kind path).write ++ tail) =
      some (.header kind path, '\n' :: tail) by
    rw [line, hheader]
  cases kind with
  | table =>
    have htext : (Written.header .table path).write ++ tail =
        '[' :: (Written.dotted path ++ ']' :: '\n' :: tail) := by
      simp [Written.write]
    have hdouble : word? "[[".toList ('[' :: (Written.dotted path ++ ']' :: '\n' :: tail)) =
        none := by
      obtain ⟨c, cs, hc, hbare⟩ := dotted_eq_cons hne hpath
      have hbracket : c ≠ '[' := ne_of_isBareKeyChar hbare (by decide)
      simp [hc, word?, hbracket.symm]
    rw [htext, header, hdouble]
    simp [hkey]
  | element =>
    have htext : (Written.header .element path).write ++ tail =
        "[[".toList ++ (Written.dotted path ++ ']' :: ']' :: '\n' :: tail) := by
      simp [Written.write]
    rw [htext, header, word?_append]
    simp [hkey, word?]

theorem line_write {w : Written} (hw : w.IsReadable) (tail : List Char) :
    line (w.write ++ tail) = some (w.line, '\n' :: tail) := by
  cases w with
  | setting name v => exact line_setting hw.1 hw.2 tail
  | header kind path => exact line_header hw.1 hw.2.1 hw.2.2 tail

theorem write_eq_cons {w : Written} (hw : w.IsReadable) :
    ∃ c cs, w.write = c :: cs ∧ (isBareKeyChar c = true ∨ c = '[') := by
  cases w with
  | setting name v =>
    obtain ⟨c, cs, hc, hbare⟩ := hw.1.eq_cons
    refine ⟨c, cs ++ " = ".toList ++ v.write ++ ['\n'], ?_, .inl hbare⟩
    simp [Written.write, hc]
  | header kind path =>
    cases kind with
    | table => exact ⟨'[', _, rfl, .inr rfl⟩
    | element => exact ⟨'[', _, rfl, .inr rfl⟩

theorem endLine_newline (cs : List Char) : endLine ('\n' :: cs) = some cs := by
  simp [endLine, skipBlanks, isBlank, skipComment, afterLineEnd?]

theorem linesFrom_newline (fuel : Nat) (cs : List Char) :
    linesFrom (fuel + 1) ('\n' :: cs) = linesFrom fuel cs := by
  have hblank : skipBlanks ('\n' :: cs) = '\n' :: cs := skipBlanks_cons (by decide) cs
  simp [linesFrom, hblank, endLine_newline]

theorem linesFrom_write {w : Written} (hw : w.IsReadable) {fuel : Nat} {tail : List Char}
    {ls : List Line} (h : linesFrom fuel tail = some ls) :
    linesFrom (fuel + 1) (w.write ++ tail) = some (w.line :: ls) := by
  have hline := line_write hw tail
  obtain ⟨c, cs, hc, hstart⟩ := write_eq_cons hw
  have hother : ∀ d, isBareKeyChar d = false → d ≠ '[' → c ≠ d := by
    intro d hd hne
    rcases hstart with hbare | rfl
    · exact ne_of_isBareKeyChar hbare hd
    · exact hne.symm
  rw [hc, List.cons_append] at hline ⊢
  have hblank : skipBlanks (c :: (cs ++ tail)) = c :: (cs ++ tail) := by
    simp [skipBlanks, isBlank, hother ' ' (by decide) (by decide),
      hother '\t' (by decide) (by decide)]
  have hend : endLine (c :: (cs ++ tail)) = none := by
    simp [endLine, hblank, skipComment, afterLineEnd?, hother '#' (by decide) (by decide),
      hother '\n' (by decide) (by decide), hother '\r' (by decide) (by decide)]
  simp [linesFrom, hblank, hend, hline, endLine_newline, h]

theorem linesFrom_writeRest {ws : List Written} (hws : ∀ w ∈ ws, w.IsReadable) {fuel : Nat}
    (hf : (Written.writeRest ws).length < fuel) :
    linesFrom fuel (Written.writeRest ws) = some (ws.map Written.line) := by
  induction ws generalizing fuel with
  | nil =>
    obtain _ | fuel := fuel
    · exact absurd hf (Nat.not_lt_zero _)
    · rfl
  | cons w ws ih =>
    obtain ⟨hw, hws⟩ := List.forall_mem_cons.mp hws
    have hpos : 0 < w.write.length := by
      obtain ⟨c, cs, hc, _⟩ := write_eq_cons hw
      simp [hc]
    cases hh : w.isHeader with
    | false =>
      simp only [Written.writeRest, hh, Bool.false_eq_true, if_false, List.nil_append,
        List.length_append] at hf ⊢
      obtain _ | fuel := fuel
      · omega
      · exact linesFrom_write hw (ih hws (by omega))
    | true =>
      simp only [Written.writeRest, hh, if_true, List.cons_append, List.nil_append,
        List.length_append, List.length_cons] at hf ⊢
      obtain _ | _ | fuel := fuel
      · omega
      · omega
      · rw [linesFrom_newline]
        exact linesFrom_write hw (ih hws (by omega))

/-- The lines of a written text are the lines that were written. -/
theorem lines_writeAll {ws : List Written} (hws : ∀ w ∈ ws, w.IsReadable) :
    lines (Written.writeAll ws) = some (ws.map Written.line) := by
  cases ws with
  | nil => rfl
  | cons w ws =>
    obtain ⟨hw, hws⟩ := List.forall_mem_cons.mp hws
    obtain ⟨c, cs, hc, hstart⟩ := write_eq_cons hw
    have hmark : c ≠ '\ufeff' := by
      rcases hstart with hbare | rfl
      · exact ne_of_isBareKeyChar hbare (by decide)
      · decide
    have hdrop : dropByteOrderMark (w.write ++ Written.writeRest ws) =
        w.write ++ Written.writeRest ws := by
      simp [hc, dropByteOrderMark, hmark]
    rw [lines, Written.writeAll, hdrop]
    refine linesFrom_write hw (linesFrom_writeRest hws ?_)
    simp only [hc, List.length_append, List.length_cons]
    omega

end Toml
end StatefulPipeline
