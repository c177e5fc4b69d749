import Mathlib.Data.List.Basic
import StatefulPipeline.Json.Forms
import StatefulPipeline.Proofs.QuotedText

/-! The text of a JSON value determines the value. The first character tells what kind of value
stands there, and each kind but a number says itself where it ends; the proof follows the value and
carries along the text that comes after it. Main statements: no two values have the same text, and
no two rules the same JSON. -/

namespace StatefulPipeline

theorem Numeral.decimal_append_inj {m n : Nat} {r s : List Char}
    (hr : r.takeWhile Char.isDigit = []) (hs : s.takeWhile Char.isDigit = [])
    (h : decimal m ++ r = decimal n ++ s) : m = n ∧ r = s := by
  have hdigits : decimal m = decimal n := by
    have ht := congrArg (List.takeWhile Char.isDigit) h
    rw [List.takeWhile_append_of_pos fun _ => isDigit_of_mem_decimal,
      List.takeWhile_append_of_pos fun _ => isDigit_of_mem_decimal, hr, hs] at ht
    simpa using ht
  have hvalue := congrArg (Nat.ofDigitChars 10 · 0) hdigits
  simp only [decimal, Nat.ofDigitChars_ten_toDigits] at hvalue
  rw [hdigits] at h
  exact ⟨hvalue, List.append_cancel_left h⟩

namespace Json

/-! Texts. -/

/-- A character stands for itself, or is escaped as it could be in other quoted texts too. -/
theorem writeChar_cases (c : Char) :
    writeChar c = [c] ∧ c ≠ '"' ∧ c ≠ '\\' ∨
      ∃ code, writeChar c = '\\' :: code ∧
        ∀ tail, Toml.escape (code ++ tail) = some ([c], tail) := by
  by_cases hshort : ∃ e ∈ Toml.shortEscapes, e.2 = c
  · obtain ⟨e, he, rfl⟩ := hshort
    have hall : ∀ e ∈ Toml.shortEscapes, writeChar e.2 = ['\\', e.1] := by decide
    exact .inr ⟨[e.1], hall e he, Toml.escape_short he⟩
  · simp only [Toml.shortEscapes, List.exists_mem_cons_iff, not_or] at hshort
    obtain ⟨hb, ht, hn, hf, hr, hq, hs, _⟩ := hshort
    have hwritten : writeChar c =
        if c.toNat < 0x20 then '\\' :: 'u' :: Numeral.hexPadded 4 c.toNat else [c] := by
      simp [writeChar, Ne.symm hb, Ne.symm ht, Ne.symm hn, Ne.symm hf, Ne.symm hr, Ne.symm hq,
        Ne.symm hs]
    split_ifs at hwritten with hlow
    · refine .inr ⟨_, hwritten, fun tail => ?_⟩
      have hcontrol : ∀ n < 0x20, Toml.hexDigits 4 0 (Numeral.hexPadded 4 n) = some (n, []) := by
        decide
      have hread := Toml.hexDigits_append tail (hcontrol c.toNat hlow)
      have hv : c.toNat.isValidChar := c.valid
      simp [Toml.escape, Toml.shortEscapes, Toml.codePoint, hread, hv]
    · exact .inl ⟨hwritten, Ne.symm hq, Ne.symm hs⟩

theorem writeChar_append_ne_quote (c : Char) (r s : List Char) : writeChar c ++ r ≠ '"' :: s := by
  rcases writeChar_cases c with ⟨hc, hq, _⟩ | ⟨code, hc, _⟩
  · simp [hc, hq]
  · simp [hc]

theorem writeChar_append_inj {c d : Char} {r s : List Char}
    (h : writeChar c ++ r = writeChar d ++ s) : c = d ∧ r = s := by
  rcases writeChar_cases c with ⟨hc, _, hslash⟩ | ⟨code, hc, hread⟩
  · rcases writeChar_cases d with ⟨hd, _, _⟩ | ⟨code', hd, _⟩
    · simpa [hc, hd] using h
    · rw [hc, hd] at h
      exact absurd (List.cons.inj h).1 hslash
  · rcases writeChar_cases d with ⟨hd, _, hslash⟩ | ⟨code', hd, hread'⟩
    · rw [hc, hd] at h
      exact absurd (List.cons.inj h).1.symm hslash
    · rw [hc, hd] at h
      -- Both codes are read off the same text.
      have hcode : code ++ r = code' ++ s := (List.cons.inj h).2
      have hsame := hread r
      rw [hcode, hread' s] at hsame
      simpa using hsame.symm

theorem flatMap_writeChar_append_inj {cs ds r s : List Char}
    (h : cs.flatMap writeChar ++ '"' :: r = ds.flatMap writeChar ++ '"' :: s) :
    cs = ds ∧ r = s := by
  induction cs generalizing ds with
  | nil =>
    cases ds with
    | nil => simpa using h
    | cons d ds =>
      rw [List.flatMap_cons, List.append_assoc] at h
      exact absurd h.symm (writeChar_append_ne_quote d _ _)
  | cons c cs ih =>
    cases ds with
    | nil =>
      rw [List.flatMap_cons, List.append_assoc] at h
      exact absurd h (writeChar_append_ne_quote c _ _)
    | cons d ds =>
      rw [List.flatMap_cons, List.flatMap_cons, List.append_assoc, List.append_assoc] at h
      obtain ⟨rfl, hrest⟩ := writeChar_append_inj h
      obtain ⟨rfl, rfl⟩ := ih hrest
      exact ⟨rfl, rfl⟩

theorem writeText_append_inj {a b : String} {r s : List Char}
    (h : writeText a ++ r = writeText b ++ s) : a = b ∧ r = s := by
  simp only [writeText, List.cons_append, List.append_assoc, List.nil_append] at h
  obtain ⟨hchars, hrest⟩ := flatMap_writeChar_append_inj (List.cons.inj h).2
  exact ⟨String.toList_inj.mp hchars, hrest⟩

/-! Values. -/

/-- What the first character of a text tells apart. -/
inductive Kind where
  | null
  | boolean
  | number
  | text
  | array
  | object

def Kind.ofChar (c : Char) : Kind :=
  if c.isDigit then .number
  else if c = '"' then .text
  else if c = '[' then .array
  else if c = '\x7b' then .object
  else if c = 'n' then .null
  else .boolean

def kind : Json → Kind
  | null => .null
  | boolean _ => .boolean
  | number _ => .number
  | text _ => .text
  | array _ => .array
  | object _ => .object

theorem write_eq_cons (level : Nat) (j : Json) :
    ∃ c cs, j.write level = c :: cs ∧ Kind.ofChar c = j.kind := by
  cases j with
  | null => exact ⟨_, _, rfl, rfl⟩
  | boolean b => cases b <;> exact ⟨_, _, rfl, rfl⟩
  | number n =>
    obtain ⟨c, cs, hc, hdigit⟩ := Numeral.decimal_eq_cons n
    exact ⟨c, cs, hc, if_pos hdigit⟩
  | text s => exact ⟨_, _, rfl, rfl⟩
  | array js => cases js <;> exact ⟨_, _, rfl, rfl⟩
  | object ms => cases ms <;> exact ⟨_, _, rfl, rfl⟩

theorem kind_eq_of_write {level : Nat} {j k : Json} {r s : List Char}
    (h : j.write level ++ r = k.write level ++ s) : j.kind = k.kind := by
  obtain ⟨c, cs, hj, hc⟩ := write_eq_cons level j
  obtain ⟨d, ds, hk, hd⟩ := write_eq_cons level k
  rw [hj, hk] at h
  rw [← hc, ← hd, (List.cons.inj h).1]

theorem takeWhile_writeItems (level : Nat) (js : List Json) (r : List Char) :
    (writeItems level js ++ '\n' :: r).takeWhile Char.isDigit = [] := by
  cases js <;> rfl

theorem takeWhile_writeMembers (level : Nat) (ms : List (String × Json)) (r : List Char) :
    (writeMembers level ms ++ '\n' :: r).takeWhile Char.isDigit = [] := by
  cases ms <;> rfl

mutual

/-- A text that starts with a value, and goes on with no digit, has one reading. -/
theorem write_append_inj {level : Nat} {j k : Json} {r s : List Char}
    (hr : r.takeWhile Char.isDigit = []) (hs : s.takeWhile Char.isDigit = [])
    (h : j.write level ++ r = k.write level ++ s) : j = k ∧ r = s := by
  have hkind := kind_eq_of_write h
  -- The recursion is on `j`; values of another kind start with another character.
  cases j with
  | null =>
    cases k with
    | null => simpa [write] using h
    | _ => cases hkind
  | boolean b =>
    cases k with
    | boolean b' => cases b <;> cases b' <;> simp_all [write]
    | _ => cases hkind
  | number m =>
    cases k with
    | number n =>
      obtain ⟨rfl, hrest⟩ := Numeral.decimal_append_inj hr hs h
      exact ⟨rfl, hrest⟩
    | _ => cases hkind
  | text a =>
    cases k with
    | text b =>
      obtain ⟨rfl, hrest⟩ := writeText_append_inj h
      exact ⟨rfl, hrest⟩
    | _ => cases hkind
  | array js =>
    cases k with
    | array ks =>
      -- An empty array is closed at once, and any other goes on in a new line.
      cases js with
      | nil =>
        cases ks with
        | nil => simpa [write] using h
        | cons k ks => simp [write, newLine] at h
      | cons j js =>
        cases ks with
        | nil => simp [write, newLine] at h
        | cons k ks =>
          simp only [write, newLine, List.cons_append, List.append_assoc] at h
          have hitem := List.append_cancel_left (List.cons.inj (List.cons.inj h).2).2
          obtain ⟨rfl, hitems⟩ := write_append_inj (takeWhile_writeItems _ _ _)
            (takeWhile_writeItems _ _ _) hitem
          obtain ⟨rfl, hrest⟩ := writeItems_append_inj hitems
          exact ⟨rfl, by simpa using hrest⟩
    | _ => cases hkind
  | object ms =>
    cases k with
    | object ns =>
      cases ms with
      | nil =>
        cases ns with
        | nil => simpa [write] using h
        | cons n ns => simp [write, newLine] at h
      | cons m ms =>
        cases ns with
        | nil => simp [write, newLine] at h
        | cons n ns =>
          simp only [write, newLine, List.cons_append, List.append_assoc] at h
          have hmember := List.append_cancel_left (List.cons.inj (List.cons.inj h).2).2
          obtain ⟨rfl, hmembers⟩ := writeMember_append_inj (takeWhile_writeMembers _ _ _)
            (takeWhile_writeMembers _ _ _) hmember
          obtain ⟨rfl, hrest⟩ := writeMembers_append_inj hmembers
          exact ⟨rfl, by simpa using hrest⟩
    | _ => cases hkind
termination_by structural j

theorem writeItems_append_inj {level : Nat} {js ks : List Json} {r s : List Char}
    (h : writeItems level js ++ '\n' :: r = writeItems level ks ++ '\n' :: s) :
    js = ks ∧ r = s := by
  cases js with
  | nil =>
    cases ks with
    | nil => simpa [writeItems] using h
    | cons k ks => simp [writeItems] at h
  | cons j js =>
    cases ks with
    | nil => simp [writeItems] at h
    | cons k ks =>
      simp only [writeItems, List.cons_append, List.append_assoc] at h
      have hitem := List.append_cancel_left (List.cons.inj h).2
      obtain ⟨rfl, hrest⟩ := write_append_inj (takeWhile_writeItems _ _ _)
        (takeWhile_writeItems _ _ _) hitem
      obtain ⟨rfl, rfl⟩ := writeItems_append_inj hrest
      exact ⟨rfl, rfl⟩
termination_by structural js

theorem writeMembers_append_inj {level : Nat} {ms ns : List (String × Json)} {r s : List Char}
    (h : writeMembers level ms ++ '\n' :: r = writeMembers level ns ++ '\n' :: s) :
    ms = ns ∧ r = s := by
  cases ms with
  | nil =>
    cases ns with
    | nil => simpa [writeMembers] using h
    | cons n ns => simp [writeMembers] at h
  | cons m ms =>
    cases ns with
    | nil => simp [writeMembers] at h
    | cons n ns =>
      simp only [writeMembers, List.cons_append, List.append_assoc] at h
      have hmember := List.append_cancel_left (List.cons.inj h).2
      obtain ⟨rfl, hrest⟩ := writeMember_append_inj (takeWhile_writeMembers _ _ _)
        (takeWhile_writeMembers _ _ _) hmember
      obtain ⟨rfl, rfl⟩ := writeMembers_append_inj hrest
      exact ⟨rfl, rfl⟩
termination_by structural ms

theorem writeMember_append_inj {level : Nat} {m n : String × Json} {r s : List Char}
    (hr : r.takeWhile Char.isDigit = []) (hs : s.takeWhile Char.isDigit = [])
    (h : writeMember level m ++ r = writeMember level n ++ s) : m = n ∧ r = s := by
  obtain ⟨name, j⟩ := m
  obtain ⟨name', k⟩ := n
  simp only [writeMember, List.append_assoc] at h
  obtain ⟨rfl, hvalue⟩ := writeText_append_inj h
  obtain ⟨rfl, rfl⟩ := write_append_inj hr hs (List.append_cancel_left hvalue)
  exact ⟨rfl, rfl⟩
termination_by structural m

end

theorem toText_injective : Function.Injective toText := by
  intro j k h
  have hw : j.write 0 ++ [] = k.write 0 ++ [] := by
    simpa only [List.append_nil] using String.ofList_injective h
  exact (write_append_inj rfl rfl hw).1

def member? (name : String) : Json → Option Json
  | object members => members.lookup name
  | _ => none

end Json

/-! Rules. -/

namespace Encoded

theorem hexDigits_byte (b : UInt8) (tail : List Char) :
    Toml.hexDigits 2 0 (Numeral.hexPadded 2 b.toNat ++ tail) = some (b.toNat, tail) := by
  have hbyte : ∀ n < 256, Toml.hexDigits 2 0 (Numeral.hexPadded 2 n) = some (n, []) := by
    decide +kernel
  exact Toml.hexDigits_append tail (hbyte _ b.toNat_lt)

theorem hexBytes_inj {bs ds : List UInt8}
    (h : (bs.flatMap fun b => Numeral.hexPadded 2 b.toNat) =
      ds.flatMap fun b => Numeral.hexPadded 2 b.toNat) : bs = ds := by
  induction bs generalizing ds with
  | nil =>
    cases ds with
    | nil => rfl
    | cons d ds =>
      have hread := hexDigits_byte d (ds.flatMap fun b => Numeral.hexPadded 2 b.toNat)
      rw [List.flatMap_cons] at h
      rw [← h] at hread
      cases hread
  | cons b bs ih =>
    have hread := hexDigits_byte b (bs.flatMap fun b => Numeral.hexPadded 2 b.toNat)
    rw [List.flatMap_cons] at h
    rw [h] at hread
    cases ds with
    | nil => cases hread
    | cons d ds =>
      rw [List.flatMap_cons, hexDigits_byte] at hread
      obtain ⟨hbyte, hrest⟩ := Prod.mk.inj (Option.some.inj hread)
      rw [UInt8.toNat_inj.mp hbyte, ih hrest.symm]

theorem hex_injective : Function.Injective hex := by
  rintro ⟨bs⟩ ⟨ds⟩ h
  have hchars := String.ofList_injective h
  simp only [List.cons.injEq, true_and] at hchars
  rw [hexBytes_inj hchars]

theorem json_injective : Function.Injective json := by
  intro e e' h
  exact hex_injective (Json.text.inj h)

end Encoded

theorem Action.json_injective : Function.Injective json := by
  rintro ⟨name, params⟩ ⟨name', params'⟩ h
  simp only [json, Json.object.injEq, List.cons.injEq, Prod.mk.injEq, Json.text.injEq,
    Json.array.injEq, true_and, and_true] at h
  obtain ⟨rfl, hparams⟩ := h
  congr 1
  refine List.map_injective_iff.mpr ?_ hparams
  rintro ⟨n, v⟩ ⟨n', v'⟩ hp
  simp only [Json.object.injEq, List.cons.injEq, Prod.mk.injEq, Json.text.injEq, true_and,
    and_true] at hp
  rw [hp.1, Encoded.json_injective hp.2]

theorem Table.name_injective : Function.Injective name := by
  intro a b h
  have hread (t : Table) : ofName t.name = .ok t := by cases t <;> rfl
  exact Except.ok.inj ((hread a).symm.trans (h ▸ hread b))

theorem FieldRef.json_injective : Function.Injective json := by
  rintro ⟨scope, name⟩ ⟨scope', name'⟩ h
  simp only [json, Json.object.injEq, List.cons.injEq, Prod.mk.injEq, Json.text.injEq, true_and,
    and_true] at h
  rw [h.1, h.2]

theorem Rule.json_injective : Function.Injective json := by
  rintro ⟨table, terms, action, priority⟩ ⟨table', terms', action', priority'⟩ h
  simp only [json, Json.object.injEq, List.cons.injEq, Prod.mk.injEq, Json.text.injEq,
    Json.array.injEq, Json.number.injEq, true_and, and_true] at h
  obtain ⟨haction, hterms, rfl, htable⟩ := h
  rw [Action.json_injective haction, Table.name_injective htable]
  congr 1
  refine List.map_injective_iff.mpr ?_ hterms
  rintro ⟨f, v⟩ ⟨f', v'⟩ hm
  simp only [Json.object.injEq, List.cons.injEq, Prod.mk.injEq, true_and, and_true] at hm
  rw [FieldRef.json_injective hm.1, Encoded.json_injective hm.2]

end StatefulPipeline
