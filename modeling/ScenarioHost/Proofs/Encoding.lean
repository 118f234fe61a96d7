import Mathlib.Tactic
import ScenarioHost.Text.Utf8
import ScenarioHost.Proofs.Texts

/-!
Texts as bytes. The bytes of a text are read back as that text: each character is found again at the
place where its first byte stands, and its other bytes are passed over. No other bytes are read.
-/
namespace ScenarioHost

namespace Utf8

/-! First bytes. -/

theorem tail_two {k : Nat} (hlow : 0xC2 ≤ k) (hhigh : k < 0xE0) : tail? k = some (1, 0x80, 0xBF) := by
  rw [tail?, if_neg (by omega), if_neg (by omega), if_pos hhigh]

/-- The least and the greatest first byte of three bound the second one further: the code is neither
below the ones of three bytes nor a surrogate. -/
theorem tail_three {k : Nat} (hlow : 0xE0 ≤ k) (hhigh : k < 0xF0) :
    tail? k = some (2, if k = 0xE0 then 0xA0 else 0x80, if k = 0xED then 0x9F else 0xBF) := by
  rw [tail?, if_neg (by omega), if_neg (by omega), if_neg (by omega)]
  by_cases hfirst : k = 0xE0
  · rw [if_pos hfirst, if_pos hfirst, if_neg (by omega)]
  · rw [if_neg hfirst, if_neg hfirst]
    by_cases hsurrogate : k = 0xED
    · rw [if_pos hsurrogate, if_pos hsurrogate]
    · rw [if_neg hsurrogate, if_neg hsurrogate, if_pos hhigh]

/-- The same with four: the code is not one of three bytes, and it is no greater than the last
one. -/
theorem tail_four {k : Nat} (hlow : 0xF0 ≤ k) (hhigh : k ≤ 0xF4) :
    tail? k = some (3, if k = 0xF0 then 0x90 else 0x80, if k = 0xF4 then 0x8F else 0xBF) := by
  rw [tail?, if_neg (by omega), if_neg (by omega), if_neg (by omega), if_neg (by omega),
    if_neg (by omega), if_neg (by omega)]
  by_cases hfirst : k = 0xF0
  · rw [if_pos hfirst, if_pos hfirst, if_neg (by omega)]
  · rw [if_neg hfirst, if_neg hfirst]
    by_cases hlast : k = 0xF4
    · rw [if_neg (by omega), if_pos hlast, if_pos hlast]
    · rw [if_pos (by omega), if_neg hlast]

/-! The bytes of one character. -/

theorem lead_of_tail {b : Char} {rest : List Char} {count low high : Nat}
    (h : tail? b.toNat = some (count + 1, low, high)) :
    lead b rest = continued (b.toNat % Nat.pow 2 (5 - count)) 1 low high (count + 1) rest := by
  have hcount : 6 - (count + 1) = 5 - count := by omega
  unfold lead
  rw [h, ← hcount]
  rfl

theorem continued_byte {code read low high count k : Nat} {rest : List Char} (hk : k < 0x100)
    (hlow : low ≤ k) (hhigh : k ≤ high) :
    continued code read low high (count + 1) (Char.ofNat k :: rest) =
      continued (code * 64 + k % 64) (read + 1) 0x80 0xBF count rest := by
  rw [continued, toNat_char_ofNat (by omega), if_pos ⟨hlow, hhigh⟩]

/-- Two bytes: five bits of the code in the first one, six in the other. -/
theorem lead_two {n : Nat} (hlow : 0x80 ≤ n) (hhigh : n < 0x800) (rest : List Char) :
    lead (Char.ofNat (0xC0 + n / 64)) (Char.ofNat (0x80 + n % 64) :: rest) =
      .char (Char.ofNat n) 2 := by
  have hfirst : (Char.ofNat (0xC0 + n / 64)).toNat = 0xC0 + n / 64 := toNat_char_ofNat (by omega)
  have htail : tail? (0xC0 + n / 64) = some (0 + 1, 0x80, 0xBF) := tail_two (by omega) (by omega)
  have hcode : (0xC0 + n / 64) % Nat.pow 2 5 * 64 + (0x80 + n % 64) % 64 = n := by
    have hpow : Nat.pow 2 5 = 32 := rfl
    rw [hpow]
    omega
  rw [← hfirst] at htail
  rw [lead_of_tail htail, hfirst, continued_byte (by omega) (by omega) (by omega), hcode, continued]

/-- Three bytes. What the first one asks of the second holds as the code needs three, and as it is
no surrogate. -/
theorem lead_three {n : Nat} (hlow : 0x800 ≤ n) (hhigh : n < 0x10000)
    (hvalid : n < 0xD800 ∨ 0xDFFF < n) (rest : List Char) :
    lead (Char.ofNat (0xE0 + n / 4096))
        (Char.ofNat (0x80 + n / 64 % 64) :: Char.ofNat (0x80 + n % 64) :: rest) =
      .char (Char.ofNat n) 3 := by
  have hfirst : (Char.ofNat (0xE0 + n / 4096)).toNat = 0xE0 + n / 4096 :=
    toNat_char_ofNat (by omega)
  have htail := tail_three (k := 0xE0 + n / 4096) (by omega) (by omega)
  have hcode : ((0xE0 + n / 4096) % Nat.pow 2 4 * 64 + (0x80 + n / 64 % 64) % 64) * 64 +
      (0x80 + n % 64) % 64 = n := by
    have hpow : Nat.pow 2 4 = 16 := rfl
    rw [hpow]
    omega
  have hsecond : (if 0xE0 + n / 4096 = 0xE0 then 0xA0 else 0x80) ≤ 0x80 + n / 64 % 64 ∧
      0x80 + n / 64 % 64 ≤ (if 0xE0 + n / 4096 = 0xED then 0x9F else 0xBF) := by
    constructor
    · split <;> omega
    · split <;> omega
  rw [← hfirst] at htail
  rw [lead_of_tail htail, hfirst, continued_byte (by omega) hsecond.1 hsecond.2,
    continued_byte (by omega) (by omega) (by omega), hcode, continued]

/-- Four bytes, for codes up to the last one. -/
theorem lead_four {n : Nat} (hlow : 0x10000 ≤ n) (hhigh : n < 0x110000) (rest : List Char) :
    lead (Char.ofNat (0xF0 + n / 262144))
        (Char.ofNat (0x80 + n / 4096 % 64) :: Char.ofNat (0x80 + n / 64 % 64) ::
          Char.ofNat (0x80 + n % 64) :: rest) =
      .char (Char.ofNat n) 4 := by
  have hfirst : (Char.ofNat (0xF0 + n / 262144)).toNat = 0xF0 + n / 262144 :=
    toNat_char_ofNat (by omega)
  have htail := tail_four (k := 0xF0 + n / 262144) (by omega) (by omega)
  have hcode : (((0xF0 + n / 262144) % Nat.pow 2 3 * 64 + (0x80 + n / 4096 % 64) % 64) * 64 +
      (0x80 + n / 64 % 64) % 64) * 64 + (0x80 + n % 64) % 64 = n := by
    have hpow : Nat.pow 2 3 = 8 := rfl
    rw [hpow]
    omega
  have hsecond : (if 0xF0 + n / 262144 = 0xF0 then 0x90 else 0x80) ≤ 0x80 + n / 4096 % 64 ∧
      0x80 + n / 4096 % 64 ≤ (if 0xF0 + n / 262144 = 0xF4 then 0x8F else 0xBF) := by
    constructor
    · split <;> omega
    · split <;> omega
  rw [← hfirst] at htail
  rw [lead_of_tail htail, hfirst, continued_byte (by omega) hsecond.1 hsecond.2,
    continued_byte (by omega) (by omega) (by omega),
    continued_byte (by omega) (by omega) (by omega), hcode, continued]

/-- The bytes of a character begin with that character. -/
theorem lead_encode (c : Char) (rest : List Char) :
    ∃ b tail, encodeChar c = b :: tail ∧ lead b (tail ++ rest) = .char c (tail.length + 1) := by
  have hvalid : c.toNat < 0xD800 ∨ 0xDFFF < c.toNat ∧ c.toNat < 0x110000 := c.valid
  have hself : Char.ofNat c.toNat = c := Char.ofNat_toNat c
  unfold encodeChar
  dsimp only
  -- by the number of bytes, in the order in which the encoder asks for it
  by_cases h1 : c.toNat < 0x80
  · rw [if_pos h1]
    refine ⟨c, [], rfl, ?_⟩
    have htail : tail? c.toNat = some (0, 0x80, 0xBF) := by
      rw [tail?, if_pos h1]
    unfold lead
    rw [htail]
    rfl
  · rw [if_neg h1]
    by_cases h2 : c.toNat < 0x800
    · rw [if_pos h2]
      refine ⟨_, _, rfl, ?_⟩
      exact (lead_two (by omega) h2 rest).trans (by rw [hself]; rfl)
    · rw [if_neg h2]
      by_cases h3 : c.toNat < 0x10000
      · rw [if_pos h3]
        refine ⟨_, _, rfl, ?_⟩
        exact (lead_three (by omega) h3 (by omega) rest).trans (by rw [hself]; rfl)
      · rw [if_neg h3]
        refine ⟨_, _, rfl, ?_⟩
        exact (lead_four (by omega) (by omega) rest).trans (by rw [hself]; rfl)

/-! Whole texts. -/

theorem decode_skipped (index : Nat) (acc skipped rest : List Char) :
    decodeFrom index skipped.length acc (skipped ++ rest) =
      decodeFrom (index + skipped.length) 0 acc rest := by
  induction skipped generalizing index with
  | nil => rfl
  | cons b skipped ih =>
    rw [List.length_cons, List.cons_append, decodeFrom, ih, Nat.add_assoc, Nat.add_comm 1]

theorem decode_encode (index : Nat) (acc cs : List Char) :
    decodeFrom index 0 acc (cs.flatMap encodeChar) = .ok (acc.reverse ++ cs) := by
  induction cs generalizing index acc with
  | nil => rw [List.flatMap_nil, decodeFrom, List.append_nil]
  | cons c cs ih =>
    -- the first byte gives the character, and those that are skipped are the rest of it
    obtain ⟨b, tail, hbytes, hlead⟩ := lead_encode c (cs.flatMap encodeChar)
    rw [List.flatMap_cons, hbytes, List.cons_append, decodeFrom, hlead]
    dsimp only
    rw [Nat.add_sub_cancel, decode_skipped, ih, List.reverse_cons, List.append_assoc,
      List.singleton_append]

theorem encode_ascii {cs : List Char} (h : ∀ c ∈ cs, c.toNat < 0x80) :
    cs.flatMap encodeChar = cs := by
  induction cs with
  | nil => rfl
  | cons c cs ih =>
    have hc : encodeChar c = [c] := if_pos (h c List.mem_cons_self)
    rw [List.flatMap_cons, hc, ih fun d hd => h d (List.mem_cons_of_mem c hd), List.singleton_append]

/-! What is decoded is the text whose bytes they are. -/

theorem continued_char {code read low high count length : Nat} {bytes : List Char} {c : Char}
    (h : continued code read low high (count + 1) bytes = .char c length) :
    ∃ b rest, bytes = b :: rest ∧ (low ≤ b.toNat ∧ b.toNat ≤ high) ∧
      continued (code * 64 + b.toNat % 64) (read + 1) 0x80 0xBF count rest = .char c length := by
  cases bytes with
  | nil => cases h
  | cons b rest =>
    rw [continued] at h
    split at h
    · rename_i hbounds
      exact ⟨b, rest, rfl, hbounds, h⟩
    · cases h

theorem encode_two {n : Nat} (hlow : 0x80 ≤ n) (hhigh : n < 0x800) :
    encodeChar (Char.ofNat n) = [Char.ofNat (0xC0 + n / 64), Char.ofNat (0x80 + n % 64)] := by
  rw [encodeChar, toNat_char_ofNat (by omega)]
  rw [if_neg (by omega), if_pos hhigh]

theorem encode_three {n : Nat} (hlow : 0x800 ≤ n) (hhigh : n < 0x10000)
    (hvalid : n < 0xD800 ∨ 0xDFFF < n) :
    encodeChar (Char.ofNat n) = [Char.ofNat (0xE0 + n / 4096), Char.ofNat (0x80 + n / 64 % 64),
      Char.ofNat (0x80 + n % 64)] := by
  have hchar : n.isValidChar := hvalid.imp_right fun h => ⟨h, by omega⟩
  rw [encodeChar, toNat_char_of_valid hchar]
  rw [if_neg (by omega), if_neg (by omega), if_pos hhigh]

theorem encode_four {n : Nat} (hlow : 0x10000 ≤ n) (hhigh : n < 0x110000) :
    encodeChar (Char.ofNat n) = [Char.ofNat (0xF0 + n / 262144), Char.ofNat (0x80 + n / 4096 % 64),
      Char.ofNat (0x80 + n / 64 % 64), Char.ofNat (0x80 + n % 64)] := by
  have hchar : n.isValidChar := Or.inr ⟨by omega, hhigh⟩
  rw [encodeChar, toNat_char_of_valid hchar]
  rw [if_neg (by omega), if_neg (by omega), if_neg (by omega)]

theorem char_eq (b : Char) {n : Nat} (h : n = b.toNat) : Char.ofNat n = b := by
  rw [h, Char.ofNat_toNat]

section Leads

variable {b c : Char} {rest : List Char} {length : Nat}

theorem encode_of_lead_two (hlow : 0xC2 ≤ b.toNat) (hhigh : b.toNat < 0xE0)
    (h : lead b rest = .char c length) :
    ∃ tail more, rest = tail ++ more ∧ length = tail.length + 1 ∧ encodeChar c = b :: tail := by
  rw [lead_of_tail (tail_two hlow hhigh)] at h
  obtain ⟨b₁, more, rfl, hb₁, h⟩ := continued_char h
  obtain ⟨rfl, rfl⟩ := Lead.char.inj h
  refine ⟨[b₁], more, rfl, rfl, ?_⟩
  have hpow : Nat.pow 2 (5 - 0) = 32 := rfl
  rw [hpow, encode_two (by omega) (by omega), char_eq b (by omega), char_eq b₁ (by omega)]

/-- The second byte keeps characters out that are written shorter, and surrogates. -/
theorem encode_of_lead_three (hlow : 0xE0 ≤ b.toNat) (hhigh : b.toNat < 0xF0)
    (h : lead b rest = .char c length) :
    ∃ tail more, rest = tail ++ more ∧ length = tail.length + 1 ∧ encodeChar c = b :: tail := by
  rw [lead_of_tail (tail_three hlow hhigh)] at h
  obtain ⟨b₁, more₁, rfl, hb₁, h⟩ := continued_char h
  obtain ⟨b₂, more, rfl, hb₂, h⟩ := continued_char h
  obtain ⟨rfl, rfl⟩ := Lead.char.inj h
  refine ⟨[b₁, b₂], more, rfl, rfl, ?_⟩
  have hpow : Nat.pow 2 (5 - 1) = 16 := rfl
  have hsecond : (0x80 ≤ b₁.toNat ∧ b₁.toNat ≤ 0xBF) ∧
      (b.toNat = 0xE0 → 0xA0 ≤ b₁.toNat) ∧ (b.toNat = 0xED → b₁.toNat ≤ 0x9F) := by
    split_ifs at hb₁ <;> omega
  rw [hpow, encode_three (by omega) (by omega) (by omega), char_eq b (by omega),
    char_eq b₁ (by omega), char_eq b₂ (by omega)]

/-- The second byte keeps characters out that are written shorter, and those that there are not. -/
theorem encode_of_lead_four (hlow : 0xF0 ≤ b.toNat) (hhigh : b.toNat ≤ 0xF4)
    (h : lead b rest = .char c length) :
    ∃ tail more, rest = tail ++ more ∧ length = tail.length + 1 ∧ encodeChar c = b :: tail := by
  rw [lead_of_tail (tail_four hlow hhigh)] at h
  obtain ⟨b₁, more₁, rfl, hb₁, h⟩ := continued_char h
  obtain ⟨b₂, more₂, rfl, hb₂, h⟩ := continued_char h
  obtain ⟨b₃, more, rfl, hb₃, h⟩ := continued_char h
  obtain ⟨rfl, rfl⟩ := Lead.char.inj h
  refine ⟨[b₁, b₂, b₃], more, rfl, rfl, ?_⟩
  have hpow : Nat.pow 2 (5 - 2) = 8 := rfl
  have hsecond : (0x80 ≤ b₁.toNat ∧ b₁.toNat ≤ 0xBF) ∧
      (b.toNat = 0xF0 → 0x90 ≤ b₁.toNat) ∧ (b.toNat = 0xF4 → b₁.toNat ≤ 0x8F) := by
    split_ifs at hb₁ <;> omega
  rw [hpow, encode_four (by omega) (by omega), char_eq b (by omega),
    char_eq b₁ (by omega), char_eq b₂ (by omega), char_eq b₃ (by omega)]

/-- The bytes that give a character are those that it is written as. -/
theorem encode_of_lead (h : lead b rest = .char c length) :
    ∃ tail more, rest = tail ++ more ∧ length = tail.length + 1 ∧ encodeChar c = b :: tail := by
  -- by the range of the first byte, which says how many follow
  by_cases h1 : b.toNat < 0x80
  · have htail : tail? b.toNat = some (0, 0x80, 0xBF) := by
      rw [tail?, if_pos h1]
    rw [lead, htail] at h
    obtain ⟨rfl, rfl⟩ := Lead.char.inj h
    exact ⟨[], rest, rfl, rfl, if_pos h1⟩
  by_cases h2 : b.toNat < 0xC2
  · have htail : tail? b.toNat = none := by
      rw [tail?, if_neg h1, if_pos h2]
    rw [lead, htail] at h
    cases h
  by_cases h3 : b.toNat < 0xE0
  · exact encode_of_lead_two (by omega) h3 h
  by_cases h4 : b.toNat < 0xF0
  · exact encode_of_lead_three (by omega) h4 h
  by_cases h5 : b.toNat ≤ 0xF4
  · exact encode_of_lead_four (by omega) h5 h
  · have htail : tail? b.toNat = none := by
      rw [tail?, if_neg h1, if_neg h2, if_neg h3, if_neg (by omega), if_neg (by omega), if_neg h4,
        if_neg (by omega), if_neg (by omega), if_neg (by omega)]
    rw [lead, htail] at h
    cases h

end Leads

/-- Bytes that are decoded are those of the text that they give. -/
theorem encode_of_decode {index : Nat} {acc bytes cs : List Char}
    (h : decodeFrom index 0 acc bytes = .ok cs) :
    ∃ read, cs = acc.reverse ++ read ∧ bytes = read.flatMap encodeChar := by
  induction hlength : bytes.length using Nat.strong_induction_on generalizing index acc bytes with
  | _ n ih =>
    cases bytes with
    | nil =>
      rw [decodeFrom] at h
      exact ⟨[], (Except.ok.inj h).symm.trans (List.append_nil _).symm, rfl⟩
    | cons b rest =>
      rw [decodeFrom] at h
      cases hlead : lead b rest with
      | invalid length =>
        rw [hlead] at h
        cases h
      | incomplete length =>
        rw [hlead] at h
        cases h
      | char c length =>
        -- the bytes after the first one are skipped, and those after the character are decoded
        obtain ⟨tail, more, rfl, rfl, hbytes⟩ := encode_of_lead hlead
        rw [hlead] at h
        dsimp only at h
        rw [Nat.add_sub_cancel, decode_skipped] at h
        have hshorter : more.length < n := by
          rw [← hlength, List.length_cons, List.length_append]
          omega
        obtain ⟨read, hread, rfl⟩ := ih _ hshorter h rfl
        refine ⟨c :: read, ?_, ?_⟩
        · rw [hread, List.reverse_cons, List.append_assoc, List.singleton_append]
        · rw [List.flatMap_cons, hbytes, List.cons_append]

end Utf8

namespace ByteString

theorem toList_ofText (s : String) : (ofText s).toList = s.toList.flatMap Utf8.encodeChar := by
  unfold ofText
  split
  · rename_i hascii
    have hbytes : ∀ c ∈ s.toList, c.toNat < 0x80 := by
      intro c hc
      exact of_decide_eq_true (List.all_eq_true.mp hascii c hc)
    exact (Utf8.encode_ascii hbytes).symm
  · exact String.toList_ofList

/-- The bytes of a text are read as that text. -/
theorem toText_ofText (s : String) : (ofText s).toText? = .ok s := by
  unfold toText?
  rw [toList_ofText, Utf8.decode_encode, List.reverse_nil, List.nil_append]
  exact congrArg Except.ok String.ofList_toList

theorem ofText_inj {s t : String} : ofText s = ofText t ↔ s = t := by
  constructor
  · intro h
    have hread := congrArg toText? h
    rw [toText_ofText, toText_ofText] at hread
    exact Except.ok.inj hread
  · rintro rfl
    rfl

/-- The texts that can be read are those whose bytes they are. -/
theorem toText_eq_ok_iff {bytes : ByteString} {text : String} :
    bytes.toText? = .ok text ↔ bytes = ofText text := by
  constructor
  · intro h
    unfold toText? at h
    cases hdecode : Utf8.decodeFrom 0 0 [] bytes.toList with
    | error e =>
      rw [hdecode] at h
      cases h
    | ok cs =>
      rw [hdecode] at h
      obtain rfl : String.ofList cs = text := Except.ok.inj h
      obtain ⟨read, hread, hbytes⟩ := Utf8.encode_of_decode hdecode
      have hlist : bytes.toList = (ofText (String.ofList cs)).toList := by
        rw [toList_ofText, String.toList_ofList, hread, hbytes]
        rfl
      cases bytes
      exact congrArg ByteString.mk (String.toList_inj.mp hlist)
  · rintro rfl
    exact toText_ofText text

end ByteString

end ScenarioHost
