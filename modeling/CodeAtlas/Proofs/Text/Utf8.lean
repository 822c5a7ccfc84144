import CodeAtlas.Text.Utf8
import Mathlib.Data.List.Infix
import Mathlib.Tactic.SplitIfs

/-! Reading bytes as text. A whole text is read back from its bytes, and whatever is replaced in
other bytes, no line feed is lost or made up. -/
namespace CodeAtlas.Text

variable {b c d e lo hi : UInt8} {l : Lead} {rest : List UInt8} {n : Nat}

/-! ### First bytes -/

/-- The numbers of the first bytes that announce a shape, and the bytes that may come second. -/
def Lead.Announced (n : Nat) : Lead → Prop
  | .ascii => n < 0x80
  | .two => 0xc2 ≤ n ∧ n < 0xe0
  | .three lo hi => 0xe0 ≤ n ∧ n < 0xf0 ∧ ∀ c : UInt8, lo ≤ c ∧ c ≤ hi ↔
      0x80 ≤ c.toNat ∧ c.toNat ≤ 0xbf ∧ (n = 0xe0 → 0xa0 ≤ c.toNat) ∧ (n = 0xed → c.toNat ≤ 0x9f)
  | .four lo hi => 0xf0 ≤ n ∧ n < 0xf5 ∧ ∀ c : UInt8, lo ≤ c ∧ c ≤ hi ↔
      0x80 ≤ c.toNat ∧ c.toNat ≤ 0xbf ∧ (n = 0xf0 → 0x90 ≤ c.toNat) ∧ (n = 0xf4 → c.toNat ≤ 0x8f)
  | .none => 0x80 ≤ n ∧ n < 0xc2 ∨ 0xf5 ≤ n

theorem Lead.announced_ofByte (b : UInt8) : (ofByte b).Announced b.toNat := by
  unfold ofByte
  simp only [UInt8.lt_iff_toNat_lt, ← UInt8.toNat_inj]
  split_ifs <;> simp only [Announced, UInt8.le_iff_toNat_le, UInt8.reduceToNat] at * <;> grind

theorem Lead.announced (h : ofByte b = l) : l.Announced b.toNat := h ▸ announced_ofByte b

theorem isTail_iff : isTail b = true ↔ 0x80 ≤ b.toNat ∧ b.toNat ≤ 0xbf := by
  simp [isTail, UInt8.le_iff_toNat_le]

/-! ### Line feeds -/

theorem ofNat_ne_lineFeed (h : n ≠ 10) : Char.ofNat n ≠ '\n' := by
  by_cases hvalid : n.isValidChar
  · rw [Char.ofNat, dif_pos hvalid]
    intro heq
    exact h (congrArg Char.toNat heq)
  · rw [Char.ofNat, dif_neg hvalid]
    decide

@[simp] theorem lineFeeds_nil : lineFeeds [] = 0 := rfl

@[simp] theorem lineFeeds_append (as bs : List UInt8) :
    lineFeeds (as ++ bs) = lineFeeds as + lineFeeds bs := List.count_append

@[simp] theorem lineFeeds_cons_of_high (h : 0x80 ≤ b.toNat) :
    lineFeeds (b :: rest) = lineFeeds rest := by
  apply List.count_cons_of_ne
  rintro rfl
  exact absurd h (by decide)

@[simp] theorem count_replacement_cons (cs : List Char) :
    (replacement :: cs).count '\n' = cs.count '\n' := List.count_cons_of_ne (by decide)

theorem Lead.high (h : ofByte b = l) (hl : l ≠ .ascii) : 0x80 ≤ b.toNat := by
  have := announced h
  cases l <;> simp only [Announced] at this <;> first | exact absurd rfl hl | omega

theorem Lead.second_three (h : ofByte b = .three lo hi) (hc : lo ≤ c ∧ c ≤ hi) : 0x80 ≤ c.toNat :=
  (((announced h).2.2 c).1 hc).1

theorem Lead.second_four (h : ofByte b = .four lo hi) (hc : lo ≤ c ∧ c ≤ hi) : 0x80 ≤ c.toNat :=
  (((announced h).2.2 c).1 hc).1

theorem Lead.value_two (h : ofByte b = .two) (c : UInt8) : 10 < tailBits (b.toNat - 0xc0) c := by
  have := announced h
  simp only [Announced] at this
  unfold tailBits
  omega

theorem Lead.value_three (h : ofByte b = .three lo hi) (hc : lo ≤ c ∧ c ≤ hi) (d : UInt8) :
    10 < tailBits (tailBits (b.toNat - 0xe0) c) d := by
  obtain ⟨hlow, _, hrange⟩ := announced h
  have := (hrange c).1 hc
  unfold tailBits
  omega

theorem Lead.value_four (h : ofByte b = .four lo hi) (hc : lo ≤ c ∧ c ≤ hi) (d e : UInt8) :
    10 < tailBits (tailBits (tailBits (b.toNat - 0xf0) c) d) e := by
  obtain ⟨hlow, _, hrange⟩ := announced h
  have := (hrange c).1 hc
  unfold tailBits
  omega

/-- Reading keeps the line feeds of any bytes. All bytes of a longer sequence are above ASCII, whether
it is whole or broken off, and so is the character that is read. -/
theorem count_decodeLossy (bs : List UInt8) : (decodeLossy bs).count '\n' = lineFeeds bs := by
  fun_induction decodeLossy bs with
  | case1 => rfl
  | case2 b rest hb ih =>
    by_cases hfeed : b = 10
    · subst hfeed
      rw [lineFeeds, List.count_cons_self, ← lineFeeds, ← ih]
      exact List.count_cons_self
    · have hne : b.toNat ≠ 10 := fun h => hfeed (UInt8.toNat_inj.1 h)
      rw [lineFeeds, List.count_cons_of_ne hfeed, ← lineFeeds, ← ih]
      exact List.count_cons_of_ne (ofNat_ne_lineFeed hne)
  | case3 b rest hb ih => simp [Lead.high hb, ih]
  | case4 b hb => simp [Lead.high hb]
  | case5 b hb c rest hc ih =>
    rw [List.count_cons_of_ne (ofNat_ne_lineFeed (Lead.value_two hb c).ne'), ih]
    simp [Lead.high hb, (isTail_iff.1 hc).1]
  | case6 b hb c rest hc ih => simp [Lead.high hb, ih]
  | case7 b lo hi hb => simp [Lead.high hb]
  | case8 b lo hi hb c hc => simp [Lead.high hb, Lead.second_three hb hc]
  | case9 b lo hi hb c hc d rest hd ih =>
    rw [List.count_cons_of_ne (ofNat_ne_lineFeed (Lead.value_three hb hc d).ne'), ih]
    simp [Lead.high hb, Lead.second_three hb hc, (isTail_iff.1 hd).1]
  | case10 b lo hi hb c hc d rest hd ih => simp [Lead.high hb, Lead.second_three hb hc, ih]
  | case11 b lo hi hb c rest hc ih => simp [Lead.high hb, ih]
  | case12 b lo hi hb => simp [Lead.high hb]
  | case13 b lo hi hb c hc => simp [Lead.high hb, Lead.second_four hb hc]
  | case14 b lo hi hb c hc d hd =>
    simp [Lead.high hb, Lead.second_four hb hc, (isTail_iff.1 hd).1]
  | case15 b lo hi hb c hc d hd e rest he ih =>
    rw [List.count_cons_of_ne (ofNat_ne_lineFeed (Lead.value_four hb hc d e).ne'), ih]
    simp [Lead.high hb, Lead.second_four hb hc, (isTail_iff.1 hd).1, (isTail_iff.1 he).1]
  | case16 b lo hi hb c hc d hd e rest he ih =>
    simp [Lead.high hb, Lead.second_four hb hc, (isTail_iff.1 hd).1, ih]
  | case17 b lo hi hb c hc d rest hd ih => simp [Lead.high hb, Lead.second_four hb hc, ih]
  | case18 b lo hi hb c rest hc ih => simp [Lead.high hb, ih]

/-! ### Whole characters -/

theorem decodeLossy_ascii (hb : b.toNat < 0x80) :
    decodeLossy (b :: rest) = Char.ofNat b.toNat :: decodeLossy rest := by
  have hlead := Lead.announced_ofByte b
  cases h : Lead.ofByte b with
  | ascii =>
    rw [decodeLossy.eq_def]
    simp only [h]
  | _ =>
    simp only [h, Lead.Announced] at hlead
    omega

theorem decodeLossy_two (hb : 0xc2 ≤ b.toNat ∧ b.toNat < 0xe0) (hc : isTail c = true) :
    decodeLossy (b :: c :: rest) =
      Char.ofNat (tailBits (b.toNat - 0xc0) c) :: decodeLossy rest := by
  have hlead := Lead.announced_ofByte b
  cases h : Lead.ofByte b with
  | two =>
    rw [decodeLossy.eq_def]
    simp only [h, hc, if_true]
  | _ =>
    simp only [h, Lead.Announced] at hlead
    omega

theorem decodeLossy_three (hb : 0xe0 ≤ b.toNat ∧ b.toNat < 0xf0)
    (hc : isTail c = true) (hoverlong : b.toNat = 0xe0 → 0xa0 ≤ c.toNat)
    (hsurrogate : b.toNat = 0xed → c.toNat ≤ 0x9f) (hd : isTail d = true) :
    decodeLossy (b :: c :: d :: rest) =
      Char.ofNat (tailBits (tailBits (b.toNat - 0xe0) c) d) :: decodeLossy rest := by
  have hlead := Lead.announced_ofByte b
  cases h : Lead.ofByte b with
  | three lo hi =>
    rw [h] at hlead
    have hrange : lo ≤ c ∧ c ≤ hi :=
      (hlead.2.2 c).2 ⟨(isTail_iff.1 hc).1, (isTail_iff.1 hc).2, hoverlong, hsurrogate⟩
    rw [decodeLossy.eq_def]
    simp only [h, hrange, hd, and_self, if_true]
  | _ =>
    simp only [h, Lead.Announced] at hlead
    omega

theorem decodeLossy_four (hb : 0xf0 ≤ b.toNat ∧ b.toNat < 0xf5)
    (hc : isTail c = true) (hoverlong : b.toNat = 0xf0 → 0x90 ≤ c.toNat)
    (hlast : b.toNat = 0xf4 → c.toNat ≤ 0x8f) (hd : isTail d = true) (he : isTail e = true) :
    decodeLossy (b :: c :: d :: e :: rest) =
      Char.ofNat (tailBits (tailBits (tailBits (b.toNat - 0xf0) c) d) e) :: decodeLossy rest := by
  have hlead := Lead.announced_ofByte b
  cases h : Lead.ofByte b with
  | four lo hi =>
    rw [h] at hlead
    have hrange : lo ≤ c ∧ c ≤ hi :=
      (hlead.2.2 c).2 ⟨(isTail_iff.1 hc).1, (isTail_iff.1 hc).2, hoverlong, hlast⟩
    rw [decodeLossy.eq_def]
    simp only [h, hrange, hd, he, and_self, if_true]
  | _ =>
    simp only [h, Lead.Announced] at hlead
    omega

theorem toNat_tail (v : Nat) : (UInt8.ofNat (v % 64 + 128)).toNat = v % 64 + 128 := by
  rw [UInt8.toNat_ofNat']
  omega

theorem isTail_tail (v : Nat) : isTail (UInt8.ofNat (v % 64 + 128)) = true := by
  rw [isTail_iff, toNat_tail]
  omega

theorem tailBits_tail (n v : Nat) : tailBits n (UInt8.ofNat (v % 64 + 128)) = n * 64 + v % 64 := by
  have := toNat_tail v
  unfold tailBits
  omega

/-- A character is read from its bytes, whatever follows them. -/
theorem decodeLossy_encodeChar (ch : Char) (rest : List UInt8) :
    decodeLossy (String.utf8EncodeChar ch ++ rest) = ch :: decodeLossy rest := by
  have hvalid : ch.toNat < 0xd800 ∨ 0xdfff < ch.toNat ∧ ch.toNat < 0x110000 := ch.valid
  have hself : Char.ofNat ch.toNat = ch := Char.ofNat_toNat ch
  unfold String.utf8EncodeChar
  change Char.ofNat ch.val.toNat = ch at hself
  change ch.val.toNat < 0xd800 ∨ 0xdfff < ch.val.toNat ∧ ch.val.toNat < 0x110000 at hvalid
  generalize ch.val.toNat = v at *
  -- The sequence has one to four bytes. In each case the first of them is in its range, and the bits
  -- of all add up to the number of the character.
  dsimp only
  split_ifs with h1 h2 h3
  · have hb : (UInt8.ofNat v).toNat = v := by
      rw [UInt8.toNat_ofNat']
      omega
    rw [List.singleton_append, decodeLossy_ascii (by omega), hb, hself]
  · have hb : (UInt8.ofNat (v / 64 % 32 + 192)).toNat = v / 64 + 192 := by
      rw [UInt8.toNat_ofNat']
      omega
    simp only [List.cons_append, List.nil_append]
    rw [decodeLossy_two (by omega) (isTail_tail v), tailBits_tail, hb]
    rw [show (v / 64 + 192 - 0xc0) * 64 + v % 64 = v by omega, hself]
  · have hb : (UInt8.ofNat (v / 4096 % 16 + 224)).toNat = v / 4096 + 224 := by
      rw [UInt8.toNat_ofNat']
      omega
    have hc := toNat_tail (v / 64)
    simp only [List.cons_append, List.nil_append]
    rw [decodeLossy_three (by omega) (isTail_tail _) (by omega) (by omega) (isTail_tail v),
      tailBits_tail, tailBits_tail, hb]
    rw [show ((v / 4096 + 224 - 0xe0) * 64 + v / 64 % 64) * 64 + v % 64 = v by omega, hself]
  · have hb : (UInt8.ofNat (v / 262144 % 8 + 240)).toNat = v / 262144 + 240 := by
      rw [UInt8.toNat_ofNat']
      omega
    have hc := toNat_tail (v / 4096)
    simp only [List.cons_append, List.nil_append]
    rw [decodeLossy_four (by omega) (isTail_tail _) (by omega) (by omega) (isTail_tail _)
      (isTail_tail v), tailBits_tail, tailBits_tail, tailBits_tail, hb]
    rw [show (((v / 262144 + 240 - 0xf0) * 64 + v / 4096 % 64) * 64 + v / 64 % 64) * 64 + v % 64 = v
      by omega, hself]

/-- A text is read back from its bytes. -/
theorem decodeLossy_encode (cs : List Char) : decodeLossy (encode cs) = cs := by
  induction cs with
  | nil => rfl
  | cons ch cs ih => rw [encode, List.flatMap_cons, ← encode, decodeLossy_encodeChar, ih]

theorem lineFeeds_encode (cs : List Char) : lineFeeds (encode cs) = cs.count '\n' := by
  rw [← count_decodeLossy, decodeLossy_encode]

/-! ### Boundaries -/

/-- A byte offset that lies in no character of a text. -/
abbrev IsBoundary (s : String) (offset : Nat) : Prop := String.Pos.Raw.IsValid s ⟨offset⟩

theorem length_bytes (s : String) : (bytes s).length = s.utf8ByteSize := by
  rw [String.utf8ByteSize, ← String.utf8Encode_toList, List.utf8Encode, List.size_toByteArray]
  rfl

@[simp] theorem encode_append (as bs : List Char) : encode (as ++ bs) = encode as ++ encode bs :=
  List.flatMap_append

theorem encode_eq_nil {cs : List Char} (h : (encode cs).length = 0) : cs = [] := by
  cases cs with
  | nil => rfl
  | cons ch cs =>
    have := ch.utf8Size_pos
    simp only [encode, List.flatMap_cons, List.length_append, String.length_utf8EncodeChar] at h
    omega

theorem IsBoundary.exists_append {s : String} (h : IsBoundary s n) :
    ∃ before after, s.toList = before ++ after ∧ (encode before).length = n := by
  obtain ⟨s₁, s₂, rfl, hn⟩ := String.Pos.Raw.isValid_iff_exists_append.1 h
  refine ⟨s₁.toList, s₂.toList, String.toList_append, ?_⟩
  have hsize : n = s₁.utf8ByteSize := congrArg String.Pos.Raw.byteIdx hn
  rw [hsize, ← length_bytes, bytes]

/-- Two boundaries cut a text into three. -/
theorem IsBoundary.exists_cut {s : String} {start length : Nat} (hstart : IsBoundary s start)
    (hstop : IsBoundary s (start + length)) :
    ∃ before inside after, s.toList = before ++ inside ++ after ∧
      (encode before).length = start ∧ (encode inside).length = length := by
  obtain ⟨before, rest, hs, hbefore⟩ := hstart.exists_append
  obtain ⟨upto, after, hs', hupto⟩ := hstop.exists_append
  rcases List.prefix_or_prefix_of_prefix ⟨rest, hs.symm⟩ ⟨after, hs'.symm⟩ with h | h
  · obtain ⟨inside, rfl⟩ := h
    refine ⟨before, inside, after, hs', hbefore, ?_⟩
    rw [encode_append, List.length_append] at hupto
    omega
  · -- The second boundary does not lie before the first, so both are the same.
    obtain ⟨between, rfl⟩ := h
    rw [encode_append, List.length_append] at hbefore
    obtain rfl : between = [] := encode_eq_nil (by omega)
    refine ⟨upto, [], after, by simpa using hs', ?_, ?_⟩ <;> simp [encode] at * <;> omega

/-! ### ASCII parts -/

section Ascii

variable {cs : List Char} {bs hs : List UInt8}

theorem high_of_mem_encodeChar {ch : Char} (h : 0x80 ≤ ch.toNat)
    (hb : b ∈ String.utf8EncodeChar ch) : 0x80 ≤ b.toNat := by
  change 0x80 ≤ ch.val.toNat at h
  unfold String.utf8EncodeChar at hb
  generalize ch.val.toNat = v at *
  dsimp only at hb
  split_ifs at hb with h1
  · omega
  all_goals
    simp only [List.mem_cons, List.not_mem_nil, or_false] at hb
    rcases hb with rfl | hb
    · rw [UInt8.toNat_ofNat']
      omega
  · rw [hb, toNat_tail]
    omega
  · rcases hb with rfl | rfl <;> rw [toNat_tail] <;> omega
  · rcases hb with rfl | rfl | rfl <;> rw [toNat_tail] <;> omega

/-- The bytes of a longer sequence are no part of an ASCII text. -/
theorem infix_of_infix_append_high (hhigh : ∀ b ∈ hs, 0x80 ≤ b.toNat)
    (hascii : ∀ b ∈ bs, b.toNat < 0x80) (h : bs <:+: hs ++ rest) : bs <:+: rest := by
  induction hs with
  | nil => exact h
  | cons b hs ih =>
    have hmore := ih fun d hd => hhigh d (by simp [hd])
    rcases List.infix_cons_iff.1 h with hstart | h
    · cases bs with
      | nil => exact List.nil_infix
      | cons d bs =>
        have hlow := hascii d (by simp)
        rw [(List.cons_prefix_cons.1 hstart).1] at hlow
        have := hhigh b (by simp)
        omega
    · exact hmore h

theorem encodeChar_of_ascii {ch : Char} (h : ch.toNat < 0x80) :
    String.utf8EncodeChar ch = [UInt8.ofNat ch.toNat] := by
  unfold String.utf8EncodeChar
  exact if_pos (Nat.le_of_lt_succ h)

theorem ofNat_toNat_of_ascii {ch : Char} (h : ch.toNat < 0x80) :
    Char.ofNat (UInt8.ofNat ch.toNat).toNat = ch := by
  rw [UInt8.toNat_ofNat', Nat.mod_eq_of_lt (by omega), Char.ofNat_toNat]

theorem isPrefix_map_ofNat (hascii : ∀ b ∈ bs, b.toNat < 0x80) (h : bs <+: encode cs) :
    bs.map (fun b => Char.ofNat b.toNat) <+: cs := by
  induction bs generalizing cs with
  | nil => exact List.nil_prefix
  | cons b bs ih =>
    have hlow := hascii b (by simp)
    cases cs with
    | nil => simp [encode] at h
    | cons ch cs =>
      rw [encode, List.flatMap_cons, ← encode] at h
      rcases Nat.lt_or_ge ch.toNat 0x80 with hch | hch
      · rw [encodeChar_of_ascii hch, List.singleton_append, List.cons_prefix_cons] at h
        obtain ⟨rfl, hrest⟩ := h
        rw [List.map_cons, ofNat_toNat_of_ascii hch, List.cons_prefix_cons]
        exact ⟨rfl, ih (fun d hd => hascii d (by simp [hd])) hrest⟩
      · obtain ⟨d, ds, hbytes⟩ := List.exists_cons_of_ne_nil (String.utf8EncodeChar_ne_nil (c := ch))
        have hhigh := high_of_mem_encodeChar (b := d) hch (by simp [hbytes])
        rw [hbytes, List.cons_append, List.cons_prefix_cons] at h
        rw [h.1] at hlow
        omega

/-- ASCII bytes that stand in the bytes of a text stand there as characters. -/
theorem isInfix_map_ofNat (hascii : ∀ b ∈ bs, b.toNat < 0x80) (h : bs <:+: encode cs) :
    bs.map (fun b => Char.ofNat b.toNat) <:+: cs := by
  induction cs with
  | nil =>
    rw [List.infix_nil.1 h]
    exact List.nil_infix
  | cons ch cs ih =>
    rcases Nat.lt_or_ge ch.toNat 0x80 with hch | hch
    · have hbytes : encode (ch :: cs) = UInt8.ofNat ch.toNat :: encode cs := by
        rw [encode, List.flatMap_cons, encodeChar_of_ascii hch]
        rfl
      rw [hbytes, List.infix_cons_iff, ← hbytes] at h
      rcases h with hstart | h
      · exact (isPrefix_map_ofNat hascii hstart).isInfix
      · exact List.infix_cons (ih h)
    · rw [encode, List.flatMap_cons] at h
      have hrest := infix_of_infix_append_high (fun b => high_of_mem_encodeChar hch) hascii h
      exact List.infix_cons (ih hrest)

end Ascii

end CodeAtlas.Text
