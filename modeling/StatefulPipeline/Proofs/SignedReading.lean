import Mathlib
import StatefulPipeline.Proofs.WordEncoding

/-! Bytes read by a width. A field can hold the bytes of the right number whose magnitude lies
within its width, and each of these is what fitting writes for the value that it is read as; so at
every width fitting and signed reading are inverse to each other. Bytes may also be read by another
width than the one they were written with. What is read is then still right modulo the reading
width, but only a set sign bit makes reading drop the bits above it. Main statements: fitting is one
to one between the values and the bytes of a signed field, and bytes are read out of the range of a
width exactly if bits stand above a clear sign bit. -/

namespace StatefulPipeline
namespace Encoded

theorem foldl_div_bytes (bytes : List UInt8) (acc : Nat) :
    bytes.foldl (fun acc b => acc * 256 + b.toNat) acc / Nat.pow 256 bytes.length = acc := by
  induction bytes generalizing acc with
  | nil => exact Nat.div_one acc
  | cons b bytes ih =>
    have hb : b.toNat < 256 := b.toNat_lt
    have hp : Nat.pow 256 (bytes.length + 1) = Nat.pow 256 bytes.length * 256 :=
      Nat.pow_succ 256 bytes.length
    rw [List.foldl_cons, List.length_cons, hp, ← Nat.div_div_eq_div_mul, ih]
    omega

/-- Writing what was read gives the bytes again, whatever was read before them. -/
theorem bigEndian_foldl (bytes : List UInt8) (acc : Nat) :
    bigEndian bytes.length (bytes.foldl (fun acc b => acc * 256 + b.toNat) acc) = bytes := by
  induction bytes generalizing acc with
  | nil => rfl
  | cons b bytes ih =>
    have hfirst : UInt8.ofNat (acc * 256 + b.toNat) = b := by
      have hb : b.toNat < 256 := b.toNat_lt
      apply UInt8.toNat_inj.mp
      rw [UInt8.toNat_ofNat']
      omega
    rw [List.length_cons, bigEndian, List.foldl_cons, foldl_div_bytes, hfirst, ih]

structure FieldBytes (width : Nat) (e : Encoded) : Prop where
  length : e.bytes.length = byteCount width
  toNat_lt : e.toNat < span width

theorem FieldBytes.ofNat_toNat {width : Nat} {e : Encoded} (h : FieldBytes width e) :
    ofNat e.toNat width = e := by
  have hbytes := bigEndian_foldl e.bytes 0
  rw [h.length] at hbytes
  exact congrArg Encoded.mk hbytes

theorem fieldBytes_of_fitAs {signed : Bool} {value : Int} {width : Nat} {e : Encoded}
    (h : fitAs signed value width = .ok e) : FieldBytes width e := by
  have hlt := toNat_lt_of_fitAs h
  obtain ⟨_, _, rfl⟩ := fitAs_eq_ok_iff.mp h
  exact ⟨ofNat_length _ width, hlt⟩

theorem fieldBytes_ofNat {value width : Nat} (h : value < span width) :
    FieldBytes width (ofNat value width) := by
  refine ⟨ofNat_length value width, ?_⟩
  rw [toNat_ofNat h]
  exact h

theorem inRange_true_iff {value : Int} {width : Nat} :
    InRange true value width ↔ -2 ^ (width - 1) ≤ value ∧ value < 2 ^ (width - 1) :=
  inRange_iff

theorem readAs_inRange (signed : Bool) {width n : Nat} (h : n < span width) :
    InRange signed (readAs signed width n) width := by
  cases signed with
  | false => exact ⟨Int.natCast_nonneg n, Int.ofNat_lt.mpr h⟩
  | true => exact inRange_true_iff.mpr ⟨BitVec.le_toInt _, BitVec.toInt_lt⟩

theorem readAs_emod (signed : Bool) {width n : Nat} (h : n < span width) :
    readAs signed width n % span width = n := by
  have hn : (n : Int) % span width = n := Int.emod_eq_of_lt (by omega) (by omega)
  cases signed with
  | false => exact hn
  | true =>
    have hword : (BitVec.ofNat width n).toNat = n :=
      (BitVec.toNat_ofNat n width).trans (Nat.mod_eq_of_lt h)
    have hread : readAs true width n = Int.bmod n (span width) := by
      rw [readAs, if_pos rfl, BitVec.toInt_eq_toNat_bmod, hword]
      rfl
    rw [hread, Int.bmod_emod, hn]

theorem FieldBytes.fitAs_readAs (signed : Bool) {width : Nat} {e : Encoded} (hw : ValidWidth width)
    (h : FieldBytes width e) : fitAs signed (readAs signed width e.toNat) width = .ok e := by
  refine fitAs_eq_ok_iff.mpr ⟨hw, readAs_inRange signed h.toNat_lt, ?_⟩
  rw [readAs_emod signed h.toNat_lt, Int.toNat_natCast, h.ofNat_toNat]

theorem FieldBytes.fitSigned_toInt {width : Nat} {e : Encoded} (hw : ValidWidth width)
    (h : FieldBytes width e) : fitSigned (e.toInt width) width = .ok e := by
  rw [toInt_eq_readAs hw h.toNat_lt]
  exact h.fitAs_readAs true hw

theorem FieldBytes.fit_toNat {width : Nat} {e : Encoded} (hw : ValidWidth width)
    (h : FieldBytes width e) : fit e.toNat width = .ok e :=
  h.fitAs_readAs false hw

theorem FieldBytes.length_le {width : Nat} {e : Encoded} (hw : ValidWidth width)
    (h : FieldBytes width e) : e.bytes.length ≤ 16 :=
  h.length ▸ InWords.byteCount_le hw.2

theorem exists_fitAs_of_inRange {signed : Bool} {value : Int} {width : Nat} (hw : ValidWidth width)
    (hr : InRange signed value width) : ∃ e, fitAs signed value width = .ok e :=
  ⟨_, fitAs_eq_ok_iff.mpr ⟨hw, hr, rfl⟩⟩

/-- Fitting pairs the values of a signed field with the bytes that the field can hold. -/
theorem fitSigned_bijOn {width : Nat} (hw : ValidWidth width) :
    Set.BijOn (fitSigned · width) {value | InRange true value width}
      (Set.image Except.ok {e | FieldBytes width e}) := by
  refine ⟨?_, ?_, ?_⟩
  · intro value (hr : InRange true value width)
    obtain ⟨e, hok⟩ := exists_fitAs_of_inRange hw hr
    exact ⟨e, fieldBytes_of_fitAs hok, hok.symm⟩
  · intro value (hr : InRange true value width) value' _ heq
    obtain ⟨e, hok⟩ := exists_fitAs_of_inRange hw hr
    exact fitAs_inj hok (heq.symm.trans hok)
  · rintro _ ⟨e, he, rfl⟩
    have hok : fitAs true (e.toInt width) width = .ok e := he.fitSigned_toInt hw
    exact ⟨e.toInt width, (fitAs_eq_ok_iff.mp hok).2.1, hok⟩

/-- Fitting and reading are inverse to each other on what a field can hold. -/
theorem fitting_undoes_reading (w : Nat) (hw : 0 < w ∧ w ≤ 128) :
    (∀ e : Encoded, e.bytes.length = (w + 7) / 8 → e.toNat < 2 ^ w →
      fitSigned (e.toInt w) w = .ok e ∧
        (InWords.toInt e w).bind (InWords.fitSigned · w) = some (.ok e) ∧
        (e.toNat < 2 ^ 127 →
          fit e.toNat w = .ok e ∧ (InWords.toNat e).bind (InWords.fit · w) = some (.ok e))) ∧
    Set.BijOn (fitSigned · w) (Set.Ico (-2 ^ (w - 1)) (2 ^ (w - 1)))
      (Set.image Except.ok {e : Encoded | e.bytes.length = (w + 7) / 8 ∧ e.toNat < 2 ^ w}) := by
  have hvalid : ValidWidth w := hw
  refine ⟨?_, ?_⟩
  · intro e hlen hlt
    have he : FieldBytes w e := ⟨hlen, hlt⟩
    have hsixteen := he.length_le hvalid
    refine ⟨he.fitSigned_toInt hvalid, ?_, fun hv => ⟨he.fit_toNat hvalid, ?_⟩⟩
    · rw [InWords.toInt_eq hsixteen, Option.bind_some, InWords.fitSigned_eq,
        he.fitSigned_toInt hvalid]
    · have hword : (e.toNat : Int) < 2 ^ 127 := by omega
      rw [(InWords.toNat_eq hsixteen).1, Option.bind_some, InWords.fit_eq hword,
        he.fit_toNat hvalid]
  · have hrange : {value | InRange true value w} = Set.Ico (-2 ^ (w - 1)) (2 ^ (w - 1)) := by
      ext value
      exact inRange_true_iff
    have hbytes : {e | FieldBytes w e} =
        {e : Encoded | e.bytes.length = (w + 7) / 8 ∧ e.toNat < 2 ^ w} := by
      ext e
      exact ⟨fun h => ⟨h.length, h.toNat_lt⟩, fun h => ⟨h.1, h.2⟩⟩
    rw [← hrange, ← hbytes]
    exact fitSigned_bijOn hvalid

theorem signBit_written_again :
    ((⟨[8, 0]⟩ : Encoded).toInt 12 = -2048 ∧ fitSigned (-2048) 12 = .ok ⟨[8, 0]⟩ ∧
      fit 2048 12 = .ok ⟨[8, 0]⟩) ∧
    (⟨128 :: List.replicate 15 0⟩ : Encoded).toInt 128 = -2 ^ 127 ∧
      fitSigned (-2 ^ 127) 128 = .ok ⟨128 :: List.replicate 15 0⟩ := by
  obtain ⟨hodd, _⟩ := fitting_undoes_reading 12 (by decide)
  obtain ⟨hfull, _⟩ := fitting_undoes_reading 128 (by decide)
  obtain ⟨hs, _, hu⟩ := hodd ⟨[8, 0]⟩ rfl (by decide)
  obtain ⟨hs', _⟩ := hfull ⟨128 :: List.replicate 15 0⟩ rfl (by decide)
  have hread : (⟨[8, 0]⟩ : Encoded).toInt 12 = -2048 := by decide
  have hread' : (⟨128 :: List.replicate 15 0⟩ : Encoded).toInt 128 = -2 ^ 127 := by decide
  rw [hread] at hs
  rw [hread'] at hs'
  exact ⟨⟨hread, hs, (hu (by decide)).1⟩, hread', hs'⟩

theorem span_pred {width : Nat} (hw : 0 < width) : span width = 2 * span (width - 1) := by
  obtain ⟨k, rfl⟩ := Nat.exists_eq_add_of_lt hw
  rw [Nat.zero_add, Nat.add_sub_cancel, InWords.span_eq, InWords.span_eq, Nat.pow_succ']

theorem testBit_sign_iff {width n : Nat} (hw : 0 < width) :
    n.testBit (width - 1) = true ↔ span (width - 1) ≤ n % span width := by
  rw [← testBit_top_iff hw (Nat.mod_lt n (span_pos width)), InWords.span_eq,
    Nat.testBit_mod_two_pow, decide_eq_true (Nat.sub_lt hw Nat.one_pos), Bool.true_and]

/-- Reading is right modulo the width, also of bytes that a field of the width cannot hold. -/
theorem toInt_emod (e : Encoded) {width : Nat} (hw : width ≤ maxWidth) :
    e.toInt width % span width = (e.toNat : Int) % span width := by
  unfold toInt
  split_ifs with hsign
  · rw [Int.sub_emod_right, Int.natCast_emod, Int.emod_emod_of_dvd _ (Int.dvd_refl _)]
  · have hd : (span width : Int) ∣ span maxWidth :=
      Int.natCast_dvd_natCast.mpr (Nat.pow_dvd_pow 2 hw)
    rw [← Int.emod_emod_of_dvd _ hd, Int.bmod_emod, Int.emod_emod_of_dvd _ hd]

/-- With the sign bit clear the width plays no part: the magnitude is read by the full width. -/
theorem toInt_of_sign_clear {e : Encoded} {width : Nat}
    (h : e.toNat.testBit (width - 1) = false) : e.toInt width = e.toInt maxWidth := by
  rw [toInt, if_neg (by simp [h]), toInt, if_neg (by omega)]

/-- A set sign bit is extended, and what stands above it is dropped. -/
theorem toInt_inRange_of_sign {e : Encoded} {width : Nat} (hpos : 0 < width)
    (hlt : width < maxWidth) (h : e.toNat.testBit (width - 1) = true) :
    InRange true (e.toInt width) width := by
  have hhalf := (testBit_sign_iff hpos).mp h
  have hmod : e.toNat % span width < span width := Nat.mod_lt _ (span_pos width)
  have hspan := span_pred hpos
  have hread : e.toInt width = ((e.toNat % span width : Nat) : Int) - span width :=
    if_pos ⟨hpos, hlt, h⟩
  change _ ≤ _ ∧ _ < _
  omega

theorem toInt_full_eq_or_neg {e : Encoded} (h : e.toNat < span maxWidth) :
    e.toInt maxWidth = e.toNat ∨ e.toInt maxWidth < 0 := by
  have hn : (e.toNat : Int) % span maxWidth = e.toNat := Int.emod_eq_of_lt (by omega) (by omega)
  have hread : e.toInt maxWidth = Int.bmod e.toNat (span maxWidth) := if_neg (by omega)
  rw [hread, Int.bmod_def, hn]
  split_ifs with hhalf
  · exact .inl rfl
  · exact .inr (by omega)

theorem half_le_emod_of_neg {value : Int} {width : Nat} (hw : 0 < width)
    (hr : InRange true value width) (hneg : value < 0) :
    (span (width - 1) : Int) ≤ value % span width := by
  have hl : -(span (width - 1) : Int) ≤ value := hr.1
  have hspan := span_pred hw
  rw [← Int.add_emod_right, Int.emod_eq_of_lt (by omega) (by omega)]
  omega

/-- Bits above a clear sign bit are read with it, and put the number out of the range. -/
theorem not_inRange_of_bits_above {e : Encoded} {width : Nat} (hw : ValidWidth width)
    (hfull : e.toNat < span maxWidth) (habove : span width ≤ e.toNat)
    (hsign : e.toNat.testBit (width - 1) = false) : ¬ InRange true (e.toInt width) width := by
  intro hr
  have hread := toInt_full_eq_or_neg hfull
  rw [← toInt_of_sign_clear hsign] at hread
  rcases hread with hread | hneg
  · have hu : e.toInt width < span (width - 1) := hr.2
    have hspan := span_pred hw.1
    omega
  · have hhalf := half_le_emod_of_neg hw.1 hr hneg
    rw [toInt_emod e hw.2] at hhalf
    have hset : e.toNat.testBit (width - 1) = true := (testBit_sign_iff hw.1).mpr (by omega)
    simp [hsign] at hset

theorem toInt_inRange_iff {e : Encoded} {width : Nat} (hw : ValidWidth width)
    (hfull : e.toNat < span maxWidth) :
    InRange true (e.toInt width) width ↔
      e.toNat < span width ∨ e.toNat.testBit (width - 1) = true := by
  by_cases hlt : e.toNat < span width
  · have hr : InRange true (e.toInt width) width := by
      rw [toInt_eq_readAs hw hlt]
      exact readAs_inRange true hlt
    exact iff_of_true hr (.inl hlt)
  · have habove : span width ≤ e.toNat := Nat.le_of_not_lt hlt
    -- Bits above the width leave no room for it to be the full one.
    have hwlt : width < maxWidth := by
      rcases Nat.lt_or_eq_of_le hw.2 with h | rfl
      · exact h
      · exact absurd hfull hlt
    cases hsign : e.toNat.testBit (width - 1) with
    | true => exact iff_of_true (toInt_inRange_of_sign hw.1 hwlt hsign) (.inr rfl)
    | false =>
      exact iff_of_false (not_inRange_of_bits_above hw hfull habove hsign) (by simp [hlt])

theorem toNat_lt_full_of_fitAs {signed : Bool} {value : Int} {width : Nat} {e : Encoded}
    (h : fitAs signed value width = .ok e) : e.toNat < span maxWidth :=
  Nat.lt_of_lt_of_le (toNat_lt_of_fitAs h) (span_mono (fitAs_eq_ok_iff.mp h).1.2)

/-- Into every wider field a value can be fitted that the narrower width does not read in range: the
one whose only bit stands right above that width. -/
theorem exists_fitAs_not_inRange (signed : Bool) {wide width : Nat} (hwide : ValidWidth wide)
    (hw : ValidWidth width) (hlt : width < wide) :
    ∃ value e, fitAs signed value wide = .ok e ∧ ¬ InRange true (e.toInt width) width := by
  have hspan : span width < span wide := Nat.pow_lt_pow_right (by decide) hlt
  have hok := (fieldBytes_ofNat hspan).fitAs_readAs signed hwide
  have hn : (ofNat (span width) wide).toNat = span width := toNat_ofNat hspan
  refine ⟨_, _, hok, not_inRange_of_bits_above hw (toNat_lt_full_of_fitAs hok) hn.ge ?_⟩
  rw [hn, InWords.span_eq]
  exact Nat.testBit_two_pow_of_ne (Nat.ne_of_gt (Nat.sub_lt hw.1 Nat.one_pos))

/-- Reading by another width goes wrong exactly where bits stand above a clear sign bit. -/
theorem signed_reading_strays_only_above_clear_sign (signed : Bool) (u w : Nat)
    (hu : 0 < u ∧ u ≤ 128) (hw : 0 < w ∧ w ≤ 128) :
    (∀ v e, fitAs signed v u = .ok e →
      e.toInt w % 2 ^ w = (e.toNat : Int) % 2 ^ w ∧
        (e.toNat.testBit (w - 1) = false → e.toInt w = e.toInt 128) ∧
        (-2 ^ (w - 1) ≤ e.toInt w ∧ e.toInt w < 2 ^ (w - 1) ↔
          e.toNat < 2 ^ w ∨ e.toNat.testBit (w - 1) = true)) ∧
    ((∀ v e, fitAs signed v u = .ok e → -2 ^ (w - 1) ≤ e.toInt w ∧ e.toInt w < 2 ^ (w - 1)) ↔
      u ≤ w) := by
  simp only [← inRange_true_iff]
  refine ⟨?_, ?_, ?_⟩
  · intro v e he
    have hs : (span w : Int) = 2 ^ w := Int.natCast_pow 2 w
    rw [← hs]
    exact ⟨toInt_emod e hw.2, toInt_of_sign_clear,
      toInt_inRange_iff hw (toNat_lt_full_of_fitAs he)⟩
  · intro hall
    by_contra hlt
    obtain ⟨v, e, he, hout⟩ := exists_fitAs_not_inRange signed hu hw (Nat.lt_of_not_le hlt)
    exact hout (hall v e he)
  · intro hle v e he
    have hlt : e.toNat < span w := Nat.lt_of_lt_of_le (toNat_lt_of_fitAs he) (span_mono hle)
    exact (toInt_inRange_iff hw (toNat_lt_full_of_fitAs he)).mpr (.inl hlt)

theorem twoBytes_read_by_eight_bits :
    fitAs false 384 16 = .ok ⟨[1, 128]⟩ ∧
      (-2 ^ 7 ≤ (⟨[1, 128]⟩ : Encoded).toInt 8 ∧ (⟨[1, 128]⟩ : Encoded).toInt 8 < 2 ^ 7) ∧
    fitAs false 256 16 = .ok ⟨[1, 0]⟩ ∧
      (⟨[1, 0]⟩ : Encoded).toInt 8 = (⟨[1, 0]⟩ : Encoded).toInt 128 := by
  obtain ⟨hread, _⟩ :=
    signed_reading_strays_only_above_clear_sign false 16 8 (by decide) (by decide)
  have hset : fitAs false 384 16 = .ok ⟨[1, 128]⟩ := rfl
  have hclear : fitAs false 256 16 = .ok ⟨[1, 0]⟩ := rfl
  exact ⟨hset, (hread _ _ hset).2.2.mpr (.inr (by decide)), hclear,
    (hread _ _ hclear).2.1 (by decide)⟩

/-- Read by eight bits, 256 in two bytes stays 256. -/
theorem bitAbove_read_out_of_range :
    fit 256 16 = .ok ⟨[1, 0]⟩ ∧ (⟨[1, 0]⟩ : Encoded).toInt 8 = 256 ∧
      ¬ (-2 ^ 7 ≤ (⟨[1, 0]⟩ : Encoded).toInt 8 ∧ (⟨[1, 0]⟩ : Encoded).toInt 8 < 2 ^ 7) := by
  decide

end Encoded
end StatefulPipeline
