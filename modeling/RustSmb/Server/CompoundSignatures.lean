import RustSmb.Server.Combined

/-!
# Signatures of responses

Signing sets a flag and puts the code of the message, with its signature field zeroed, into that
field.  A response of a compound is signed, changed when it is placed, signed again and only then
padded.

## Main definitions

* `splitCommands` — the walk over the parts of a message, from the front.
* `sealWith` — bytes with their signature.
* `PartVerifies` — a part of a reply passes the check.

## Main results

* `maybeSignResponse_verifies` — **a single response that is signed passes the check.**
* `placeResponse_signUnder` — a placed response is signed bytes and padding.
* `splitCommands_unpadded`, `splitCommands_last` — a receiver finds a placed response again if it
  has no padding, and it passes the check.
-/

namespace RustSmb

open List Bytes Smb2Flags

/-! ### The walk from the front -/

/-- The parts of a message: each ends where its distance says, the last where the message ends. -/
def splitCommands : ℕ → Bytes → List Bytes
  | 0, _ => []
  | fuel + 1, data =>
      if data.length = 0 then []
      else if data.length < 64 then [data]
      else if (data.u32 20).toNat = 0 ∨ data.length ≤ (data.u32 20).toNat then [data]
      else
        data.take (data.u32 20).toNat :: splitCommands fuel (data.drop (data.u32 20).toNat)

theorem splitCommands_nil (fuel : ℕ) : splitCommands fuel [] = [] := by
  cases fuel <;> rfl

theorem compoundOffsetsFrom_of_length_le {data : Bytes} {fuel current : ℕ}
    (h : data.length ≤ current) : compoundOffsetsFrom data fuel current = [] := by
  cases fuel with
  | zero => rfl
  | succ fuel => rw [compoundOffsetsFrom, if_neg (by omega)]

theorem compoundCommands_compoundOffsetsFrom (data : Bytes) {fuel current : ℕ}
    (hfuel : data.length < current + fuel) :
    compoundCommands data (compoundOffsetsFrom data fuel current) =
      splitCommands fuel (data.drop current) := by
  induction fuel generalizing current with
  | zero =>
    rw [compoundOffsetsFrom_of_length_le (by omega)]
    rfl
  | succ fuel ih =>
    have hfield : (u32 (data.drop current) 20) = data.u32 (current + 20) := by
      rw [u32, u32]
      congr 1
      apply leNat_congr
      intro i _
      rw [getD_drop]
      congr 1
      omega
    rw [compoundOffsetsFrom, splitCommands, length_drop, hfield]
    by_cases hin : current < data.length
    · have hleft : ¬ data.length - current = 0 := by omega
      rw [if_pos hin, if_neg hleft]
      by_cases hshort : current + 64 > data.length
      · have hleft : data.length - current < 64 := by omega
        rw [if_pos hshort, if_pos hleft]
        rfl
      have hleft : ¬ data.length - current < 64 := by omega
      rw [if_neg hshort, if_neg hleft]
      dsimp only
      by_cases hzero : (data.u32 (current + 20)).toNat = 0
      · rw [if_pos hzero, if_pos (.inl hzero)]
        rfl
      rw [if_neg hzero]
      by_cases hend : data.length ≤ current + (data.u32 (current + 20)).toNat
      · rw [if_pos (.inr (by omega)), compoundOffsetsFrom_of_length_le hend]
        rfl
      rw [if_neg (by omega), drop_drop, ← ih (by omega)]
      -- the next command starts where the distance says
      obtain ⟨fuel, rfl⟩ : ∃ n, fuel = n + 1 := ⟨fuel - 1, by omega⟩
      obtain ⟨rest, hrest⟩ : ∃ rest, compoundOffsetsFrom data (fuel + 1)
          (current + (data.u32 (current + 20)).toNat) =
            (current + (data.u32 (current + 20)).toNat) :: rest := by
        rw [compoundOffsetsFrom, if_pos (by omega)]
        split
        · exact ⟨[], rfl⟩
        dsimp only
        split
        · exact ⟨[], rfl⟩
        · exact ⟨_, rfl⟩
      rw [hrest, compoundCommands, Nat.add_sub_cancel_left]
      rfl
    · rw [if_neg hin, if_pos (by omega)]
      rfl

theorem compoundCommands_parse (data : Bytes) :
    compoundCommands data (parseCompoundOffsets data) = splitCommands (data.length + 1) data := by
  have hfuel : data.length < 0 + (data.length + 1) := by omega
  have h := compoundCommands_compoundOffsetsFrom data hfuel
  rwa [drop_zero] at h

/-! ### Signed bytes -/

theorem splice_again {b d e : Bytes} {off : ℕ} (hlen : d.length = e.length)
    (h : off + d.length ≤ b.length) : (b.splice off d).splice off e = b.splice off e := by
  have htake : (b.take off).length = off := length_take_of_le (by omega)
  have htake' : (b.take off ++ d).length = off + e.length := by rw [length_append, htake, hlen]
  unfold splice
  rw [append_assoc (b.take off), take_left' htake, ← append_assoc, drop_left' htake', hlen]

theorem slice_splice {b d : Bytes} {off : ℕ} (h : off + d.length ≤ b.length) :
    (b.splice off d).slice off d.length = d := by
  have htake : (b.take off).length = off := length_take_of_le (by omega)
  unfold splice slice
  rw [append_assoc, drop_left' htake, take_left]

theorem slice_take_append {b tail : Bytes} {n off k : ℕ} (hn : off + k ≤ n)
    (hb : off + k ≤ b.length) : slice ((b ++ tail).take n) off k = b.slice off k := by
  unfold slice
  rw [drop_take, take_take, Nat.min_eq_left (by omega),
    drop_append_of_le_length (by omega), take_append_of_le_length]
  rw [length_drop]
  omega

section Seal

theorem length_zeroSignature {b : Bytes} (h : 64 ≤ b.length) :
    (zeroSignature b).length = b.length :=
  length_splice (by rw [length_zeros]; omega)

variable [Externs]

/-- Bytes with the signature of them under a key in their signature field. -/
def sealWith (key b : Bytes) : Bytes :=
  (zeroSignature b).splice 48 (computeSignature key (zeroSignature b))

theorem signature_fits {b : Bytes} (h : 64 ≤ b.length) (key m : Bytes) :
    48 + (computeSignature key m).length ≤ (zeroSignature b).length := by
  rw [length_computeSignature, length_zeroSignature h]
  omega

theorem length_sealWith {b : Bytes} (h : 64 ≤ b.length) (key : Bytes) :
    (sealWith key b).length = b.length := by
  unfold sealWith
  rw [length_splice (signature_fits h _ _), length_zeroSignature h]

theorem le_length_sealWith {b : Bytes} (h : 64 ≤ b.length) (key : Bytes) :
    64 ≤ (sealWith key b).length := by
  rwa [length_sealWith h]

/-- The signature field of signed bytes, also when they are cut or followed by others. -/
theorem slice_sealWith {b tail : Bytes} (h : 64 ≤ b.length) (key : Bytes) {n : ℕ} (hn : 64 ≤ n) :
    slice ((sealWith key b ++ tail).take n) 48 16 = computeSignature key (zeroSignature b) := by
  rw [slice_take_append (by omega) (by rw [length_sealWith h]; omega)]
  have hslice := slice_splice (signature_fits h key (zeroSignature b))
  rwa [length_computeSignature] at hslice

theorem zeroSignature_sealWith {b : Bytes} (h : 64 ≤ b.length) (key : Bytes) :
    zeroSignature (sealWith key b) = zeroSignature b := by
  have hlen : 48 + (zeros 16).length ≤ b.length := by
    rw [length_zeros]
    omega
  have hagain : (sealWith key b).splice 48 (zeros 16) = (zeroSignature b).splice 48 (zeros 16) := by
    apply splice_again _ (signature_fits h _ _)
    rw [length_computeSignature, length_zeros]
  unfold zeroSignature at hagain ⊢
  rw [hagain, splice_again rfl hlen]

theorem verifyRequestSignature_sealWith {b : Bytes} (h : 64 ≤ b.length) (key : Bytes) :
    verifyRequestSignature (sealWith key b) key = .ok () := by
  have hslice : slice ((sealWith key b ++ []).take b.length) 48 16 =
      computeSignature key (zeroSignature b) := slice_sealWith h key h
  rw [append_nil, take_of_length_le (by rw [length_sealWith h])] at hslice
  rw [verifyRequestSignature_eq_ok, zeroSignature_sealWith h, hslice, length_sealWith h]
  exact ⟨h, rfl⟩

end Seal

/-! ### Placed responses -/

theorem isSigned_or {x : UInt32} (y : UInt32) (h : isSigned x = true) :
    isSigned (x ||| y) = true := mask_or y h

theorem isSigned_or_signed (x : UInt32) : isSigned (x ||| SIGNED) = true := by
  have h : isSigned SIGNED = true := by decide
  rw [UInt32.or_comm]
  exact isSigned_or x h

section Placed

theorem splice_u32_self {b : Bytes} {o : ℕ} (h : o + 4 ≤ b.length) :
    b.splice o (ofU32 (b.u32 o)) = b := by
  have hlt : leNat b o 4 < 2 ^ 32 := leNat_lt b o 4
  have hfield : ofU32 (b.u32 o) = b.slice o 4 := by
    rw [u32, ofU32, UInt32.toNat_ofNat_of_lt' hlt, ofLeNat_leNat h]
  rw [hfield, splice_slice h]

variable [Externs] {keys : Table UInt64 Bytes} {key raw : Bytes}

/-- A response with the flag of signed messages. -/
def markSigned (raw : Bytes) : Bytes :=
  raw.splice 16 (Bytes.ofU32 (raw.u32 16 ||| SIGNED))

/-- A response as it is handed over to be combined: signed under the key of its session. -/
def signUnder (keys : Table UInt64 Bytes) (raw : Bytes) : Bytes :=
  match keys.lookup (raw.u64 40) with
  | some key => sealWith key (markSigned raw)
  | none => raw

theorem signUnder_eq (hkey : keys.lookup (raw.u64 40) = some key) :
    signUnder keys raw = sealWith key (markSigned raw) := by
  unfold signUnder
  rw [hkey]

omit [Externs] in
theorem markSigned_fits (hlen : 64 ≤ raw.length) :
    16 + (ofU32 (raw.u32 16 ||| SIGNED)).length ≤ raw.length := by
  rw [length_ofU32]
  omega

omit [Externs] in
theorem length_markSigned (hlen : 64 ≤ raw.length) : (markSigned raw).length = raw.length :=
  length_splice (markSigned_fits hlen)

omit [Externs] in
theorem le_length_markSigned (hlen : 64 ≤ raw.length) : 64 ≤ (markSigned raw).length := by
  rwa [length_markSigned hlen]

theorem getD_sealWith {b : Bytes} (hlen : 64 ≤ b.length) (key : Bytes) {i : ℕ}
    (hi : i < 48 ∨ 64 ≤ i) : (sealWith key b).getD i 0 = b.getD i 0 := by
  have hzero := (splice_signature hlen (length_zeros 16)).2 i hi
  have hlen' : 64 ≤ (zeroSignature b).length := by rwa [length_zeroSignature hlen]
  have hseal := (splice_signature hlen' (length_computeSignature key (zeroSignature b))).2 i hi
  exact hseal.trans hzero

theorem u32_sealWith {b : Bytes} (hlen : 64 ≤ b.length) (key : Bytes) {o : ℕ} (ho : o + 4 ≤ 48) :
    (sealWith key b).u32 o = b.u32 o := by
  rw [u32, u32, leNat_congr]
  intro i hi
  exact getD_sealWith hlen key (.inl (by omega))

theorem u64_sealWith {b : Bytes} (hlen : 64 ≤ b.length) (key : Bytes) {o : ℕ} (ho : o + 8 ≤ 48) :
    (sealWith key b).u64 o = b.u64 o := by
  apply u64_congr
  intro i hi
  exact getD_sealWith hlen key (.inl (by omega))

omit [Externs] in
theorem size_not_lt (hlen : 64 ≤ raw.length) : ¬ raw.length < SMB2_HEADER_SIZE := by
  unfold SMB2_HEADER_SIZE
  omega

theorem maybeSignResponse_eq_signUnder (hlen : 64 ≤ raw.length)
    (hunsign : isSigned (raw.u32 16) = false) :
    maybeSignResponse keys raw = signUnder keys raw := by
  unfold maybeSignResponse signUnder
  rw [if_neg (size_not_lt hlen)]
  cases keys.lookup (raw.u64 40) with
  | none => rfl
  | some key =>
    simp only [hunsign, Bool.false_eq_true, if_false]
    rfl

theorem maybeSignResponse_eq_self {response : Bytes}
    (hsign : isSigned (response.u32 16) = true) :
    maybeSignResponse keys response = response := by
  unfold maybeSignResponse
  split
  · rfl
  cases keys.lookup (response.u64 40) with
  | none => rfl
  | some key =>
    dsimp only
    rw [if_pos hsign]

section Signing

variable (hlen : 64 ≤ raw.length) (hkey : keys.lookup (raw.u64 40) = some key)

include hlen hkey

theorem signUnder_keeps :
    (signUnder keys raw).length = raw.length ∧ (signUnder keys raw).u64 40 = raw.u64 40 ∧
      isSigned ((signUnder keys raw).u32 16) = true := by
  have hmark := le_length_markSigned hlen
  rw [signUnder_eq hkey, length_sealWith hmark, u64_sealWith hmark key (by omega),
    u32_sealWith hmark key (by omega)]
  refine ⟨length_markSigned hlen, ?_, ?_⟩
  · rw [u64, u64, markSigned, leNat_splice_of_outside (markSigned_fits hlen) (.inr (by simp))]
  · unfold markSigned
    rw [u32_splice_self (by omega)]
    exact isSigned_or_signed _

theorem placeResponse_handedOver (isRelated isLast : Bool) :
    placeResponse keys isRelated isLast (signUnder keys raw) =
      (if (isRelated || !isLast || (signUnder keys raw).u32 20 != 0) = true then
        reSignResponse keys (withNext isRelated (nextOf isLast raw) (signUnder keys raw))
      else withNext isRelated (nextOf isLast raw) (signUnder keys raw)) ++
        zeros (paddingOf isLast raw) := by
  obtain ⟨hsize, -, -⟩ := signUnder_keeps hlen hkey
  have hpad : paddingOf isLast (signUnder keys raw) = paddingOf isLast raw := by
    unfold paddingOf
    rw [hsize]
  have hnext : nextOf isLast (signUnder keys raw) = nextOf isLast raw := by
    unfold nextOf
    rw [hpad, hsize]
  have hlong : 64 ≤ (signUnder keys raw).length := by rwa [hsize]
  rw [← hnext, ← hpad]
  unfold placeResponse
  rw [if_neg (size_not_lt hlong)]
  rfl

/-- **A placed response is signed bytes and padding.** -/
theorem placeResponse_signUnder (isRelated isLast : Bool) :
    ∃ b, b.length = raw.length ∧ b.u64 40 = raw.u64 40 ∧ b.u32 20 = nextOf isLast raw ∧
      isSigned (b.u32 16) = true ∧
      placeResponse keys isRelated isLast (signUnder keys raw) =
        sealWith key b ++ zeros (paddingOf isLast raw) := by
  obtain ⟨hsize, hsess, hflag⟩ := signUnder_keeps hlen hkey
  have hlong : 64 ≤ (signUnder keys raw).length := by rwa [hsize]
  obtain ⟨hwlen, hwnext, hwflags, hwbytes⟩ := withNext_keeps isRelated (nextOf isLast raw) hlong
  rw [placeResponse_handedOver hlen hkey]
  by_cases hmod : (isRelated || !isLast || (signUnder keys raw).u32 20 != 0) = true
  · -- the header was changed: the response is signed again
    have hwsession : (withNext isRelated (nextOf isLast raw) (signUnder keys raw)).u64 40 =
        raw.u64 40 := by
      rw [← hsess]
      apply u64_congr
      intro i hi
      exact hwbytes (40 + i) (.inr (by omega))
    have hwkey : keys.lookup
        ((withNext isRelated (nextOf isLast raw) (signUnder keys raw)).u64 40) = some key := by
      rw [hwsession]
      exact hkey
    have hwsigned : isSigned
        ((withNext isRelated (nextOf isLast raw) (signUnder keys raw)).u32 16) = true := by
      rw [hwflags]
      exact isSigned_or _ hflag
    have hwlong : 64 ≤ (withNext isRelated (nextOf isLast raw) (signUnder keys raw)).length := by
      rw [hwlen]
      exact hlong
    refine ⟨_, hwlen.trans hsize, hwsession, hwnext, hwsigned, ?_⟩
    rw [if_pos hmod, reSignResponse, if_neg (size_not_lt hwlong), hwkey]
    simp only [hwsigned, if_true]
    rfl
  · -- the last response of an unrelated compound is as it was handed over
    rw [if_neg hmod]
    simp only [Bool.or_eq_true, Bool.not_eq_true', bne_iff_ne, not_or, Bool.not_eq_true,
      Bool.not_eq_false, not_ne_iff] at hmod
    obtain ⟨⟨rfl, rfl⟩, hzero⟩ := hmod
    have hmark := le_length_markSigned hlen
    have hsame : withNext false (nextOf true raw) (signUnder keys raw) = signUnder keys raw := by
      change (signUnder keys raw).splice 20 (ofU32 0) = signUnder keys raw
      rw [← hzero, splice_u32_self (by omega)]
    rw [hsame]
    rw [signUnder_eq hkey] at hsess hzero hflag ⊢
    refine ⟨markSigned raw, length_markSigned hlen, ?_, ?_, ?_, rfl⟩
    · rw [← hsess, u64_sealWith hmark key (by omega)]
    · rw [← u32_sealWith hmark key (by omega), hzero]
      rfl
    · rw [← u32_sealWith hmark key (by omega)]
      exact hflag

end Signing

/-! ### Single responses -/

/-- Two messages are equal but for the flag of signed messages and the signature. -/
structure EqualUnsigned (a b : Bytes) : Prop where
  length : a.length = b.length
  bytes : ∀ i, i < 16 ∨ (20 ≤ i ∧ i < 48) ∨ 64 ≤ i → a.getD i 0 = b.getD i 0
  flags : a.u32 16 ||| SIGNED = b.u32 16 ||| SIGNED

namespace EqualUnsigned

variable {a b c : Bytes}

omit [Externs]

theorem symm (h : EqualUnsigned a b) : EqualUnsigned b a :=
  ⟨h.length.symm, fun i hi => (h.bytes i hi).symm, h.flags.symm⟩

theorem trans (h : EqualUnsigned a b) (h' : EqualUnsigned b c) : EqualUnsigned a c :=
  ⟨h.length.trans h'.length, fun i hi => (h.bytes i hi).trans (h'.bytes i hi),
    h.flags.trans h'.flags⟩

theorem zeroed (hlen : 64 ≤ b.length) : EqualUnsigned (zeroSignature b) b := by
  obtain ⟨hsize, hbytes⟩ := splice_signature hlen (length_zeros 16)
  refine ⟨hsize, fun i hi => hbytes i (by omega), ?_⟩
  rw [zeroSignature, u32_splice_of_outside (by simp; omega) (.inl (by omega))]

theorem marked (hlen : 64 ≤ b.length) : EqualUnsigned (markSigned b) b := by
  have hfits := markSigned_fits hlen
  refine ⟨length_markSigned hlen, fun i hi => ?_, ?_⟩
  · exact getD_splice_of_outside hfits (by rw [length_ofU32]; omega)
  · rw [markSigned, u32_splice_self (by omega), UInt32.or_assoc, UInt32.or_self]

end EqualUnsigned

/-- The bytes of which the signature is computed are those of the response. -/
theorem equalUnsigned_macInput (hlen : 64 ≤ raw.length)
    (hunsign : isSigned (raw.u32 16) = false)
    (hkey : keys.lookup (raw.u64 40) = some key) :
    EqualUnsigned (zeroSignature (maybeSignResponse keys raw)) raw := by
  have hmark := le_length_markSigned hlen
  rw [maybeSignResponse_eq_signUnder hlen hunsign, signUnder_eq hkey, zeroSignature_sealWith hmark]
  exact (EqualUnsigned.zeroed hmark).trans (.marked hlen)

/-- **A single signed response verifies, says what it said, and its signature covers all of
that**: with any signature algorithm the check passes under the session's key, only the flag and
the signature are changed, and responses that differ otherwise are signed over different bytes. -/
theorem maybeSignResponse_verifies (hlen : 64 ≤ raw.length)
    (hunsigned : isSigned (raw.u32 16) = false)
    (hkey : keys.lookup (raw.u64 40) = some key) :
    verifyRequestSignature (maybeSignResponse keys raw) key = .ok () ∧
      EqualUnsigned (maybeSignResponse keys raw) raw ∧
      ∀ keys' raw' key', 64 ≤ raw'.length → isSigned (raw'.u32 16) = false →
        keys'.lookup (raw'.u64 40) = some key' →
        zeroSignature (maybeSignResponse keys raw) =
          zeroSignature (maybeSignResponse keys' raw') → EqualUnsigned raw raw' := by
  have hmark := le_length_markSigned hlen
  have hinput := equalUnsigned_macInput hlen hunsigned hkey
  have hsign : maybeSignResponse keys raw = sealWith key (markSigned raw) := by
    rw [maybeSignResponse_eq_signUnder hlen hunsigned, signUnder_eq hkey]
  refine ⟨?_, ?_, fun keys' raw' key' hlen' hunsign' hkey' hsame => ?_⟩
  · rw [hsign]
    exact verifyRequestSignature_sealWith hmark key
  · have hlong : 64 ≤ (maybeSignResponse keys raw).length := by rwa [hsign, length_sealWith hmark]
    exact (EqualUnsigned.zeroed hlong).symm.trans hinput
  · rw [hsame] at hinput
    exact hinput.symm.trans (equalUnsigned_macInput hlen' hunsign' hkey')

end Placed

namespace Sample

/-- A response of session 0 with so many bytes. -/
def rawResponse (n : ℕ) : Bytes := (⟨{ command := .echo }, Bytes.zeros (n - 64)⟩ : Response).bytes

/-- The keys of a connection with session 0. -/
def keyOfZero : Table UInt64 Bytes := (∅ : Table UInt64 Bytes).insert 0 (Bytes.zeros 16)

/-- A response of session 0 is signed, and over other bytes than a longer one. -/
theorem maybeSignResponse_verifies_zero :
    (64 ≤ (rawResponse 72).length ∧ isSigned ((rawResponse 72).u32 16) = false ∧
      keyOfZero.lookup ((rawResponse 72).u64 40) = some (zeros 16)) ∧ ∀ E : Externs,
      @verifyRequestSignature E (@maybeSignResponse E keyOfZero (rawResponse 72)) (zeros 16) =
          .ok () ∧
        EqualUnsigned (@maybeSignResponse E keyOfZero (rawResponse 72)) (rawResponse 72) ∧
        zeroSignature (@maybeSignResponse E keyOfZero (rawResponse 72)) ≠
          zeroSignature (@maybeSignResponse E keyOfZero (rawResponse 80)) := by
  have hlen : 64 ≤ (rawResponse 72).length := by decide +kernel
  have hunsigned : isSigned ((rawResponse 72).u32 16) = false := by decide +kernel
  have hkey : keyOfZero.lookup ((rawResponse 72).u64 40) = some (zeros 16) := by decide +kernel
  refine ⟨⟨hlen, hunsigned, hkey⟩, fun E => ?_⟩
  obtain ⟨hver, hequal, hcovers⟩ := maybeSignResponse_verifies hlen hunsigned hkey
  refine ⟨hver, hequal, fun hsame => ?_⟩
  have hlength := (hcovers keyOfZero (rawResponse 80) (zeros 16) (by decide +kernel)
    (by decide +kernel) (by decide +kernel) hsame).length
  exact absurd hlength (by decide +kernel)

end Sample

/-! ### Replies -/

/-- A part of a reply passes the check under the key of its session. -/
def PartVerifies [Externs] (keys : Table UInt64 Bytes) (part : Bytes) : Prop :=
  ∃ key, keys.lookup (part.u64 40) = some key ∧ verifyRequestSignature part key = .ok ()

instance [Externs] (keys : Table UInt64 Bytes) (part : Bytes) :
    Decidable (PartVerifies keys part) :=
  decidable_of_iff (∃ key ∈ keys.lookup (part.u64 40), SMB2_HEADER_SIZE ≤ part.length ∧ _)
    (exists_congr fun _ => and_congr_right fun _ => verifyRequestSignature_eq_ok.symm)

/-- A response that is placed without padding, at a distance that its field can hold. -/
def Unpadded (raw : Bytes) : Prop := 8 ∣ raw.length ∧ raw.length < 2 ^ 32

instance (raw : Bytes) : Decidable (Unpadded raw) := inferInstanceAs (Decidable (_ ∧ _))

/-- A response on a session with a signing key. -/
def OnKeyedSession (keys : Table UInt64 Bytes) (raw : Bytes) : Prop :=
  64 ≤ raw.length ∧ (keys.lookup (raw.u64 40)).isSome = true

instance (keys : Table UInt64 Bytes) (raw : Bytes) : Decidable (OnKeyedSession keys raw) :=
  inferInstanceAs (Decidable (_ ∧ _))

section Replies

variable {keys : Table UInt64 Bytes} {raw : Bytes}

theorem Unpadded.paddingOf (h : Unpadded raw) : paddingOf false raw = 0 := by
  have h8 := h.1
  change compoundPadding raw.length = 0
  unfold compoundPadding
  omega

theorem Unpadded.nextOf (h : Unpadded raw) : (nextOf false raw).toNat = raw.length := by
  have hlt : raw.length < UInt32.size := h.2
  change (UInt32.ofNat (raw.length + RustSmb.paddingOf false raw)).toNat = raw.length
  rw [h.paddingOf, Nat.add_zero, UInt32.toNat_ofNat_of_lt' hlt]

theorem partVerifies_sealWith [Externs] {b key : Bytes} (hlen : 64 ≤ b.length)
    (hkey : keys.lookup (b.u64 40) = some key) : PartVerifies keys (sealWith key b) := by
  refine ⟨key, ?_, verifyRequestSignature_sealWith hlen key⟩
  rw [u64_sealWith hlen key (by omega)]
  exact hkey

theorem OnKeyedSession.placed [Externs] (hraw : OnKeyedSession keys raw)
    (isRelated isLast : Bool) :
    ∃ key b, 64 ≤ b.length ∧ b.length = raw.length ∧ keys.lookup (b.u64 40) = some key ∧
      b.u32 20 = nextOf isLast raw ∧ isSigned (b.u32 16) = true ∧
      placeResponse keys isRelated isLast (signUnder keys raw) =
        sealWith key b ++ zeros (paddingOf isLast raw) := by
  obtain ⟨hlen, hsome⟩ := hraw
  obtain ⟨key, hkey⟩ := Option.isSome_iff_exists.1 hsome
  obtain ⟨b, hb, hsess, hrest⟩ := placeResponse_signUnder hlen hkey isRelated isLast
  exact ⟨key, b, by rwa [hb], hb, by rwa [hsess], hrest⟩

/-- The first part of a reply whose first response is placed without padding. -/
theorem splitCommands_unpadded [Externs] (isRelated : Bool) (hraw : OnKeyedSession keys raw)
    (h : Unpadded raw) (rest : Bytes) (fuel : ℕ) :
    ∃ part, PartVerifies keys part ∧
      placeResponse keys isRelated false (signUnder keys raw) = part ∧
      splitCommands (fuel + 1) (part ++ rest) = part :: splitCommands fuel rest := by
  obtain ⟨key, b, hblen, hb, hbkey, hnext, -, hplace⟩ := hraw.placed isRelated false
  have hpart : (sealWith key b).length = raw.length := by rw [length_sealWith hblen, hb]
  have hfield : ((sealWith key b ++ rest).u32 20).toNat = (sealWith key b).length := by
    rw [u32_append_left _ (by omega), u32_sealWith hblen key (by omega), hnext, h.nextOf, hpart]
  refine ⟨sealWith key b, partVerifies_sealWith hblen hbkey, ?_, ?_⟩
  · rw [hplace, h.paddingOf, zeros, replicate_zero, append_nil]
  · rw [splitCommands, length_append, hfield, if_neg (by omega), if_neg (by omega), take_left,
      drop_left]
    cases rest with
    | nil => rw [append_nil, if_pos (.inr (by simp)), splitCommands_nil]
    | cons b rest => rw [if_neg (by rw [length_cons]; omega)]

theorem splitCommands_sealWith [Externs] {b : Bytes} (hlen : 64 ≤ b.length) (key : Bytes)
    (hnext : b.u32 20 = 0) (fuel : ℕ) :
    splitCommands (fuel + 1) (sealWith key b) = [sealWith key b] := by
  have hpart := length_sealWith hlen key
  have hfield : ((sealWith key b).u32 20).toNat = 0 := by
    rw [u32_sealWith hlen key (by omega), hnext]
    rfl
  rw [splitCommands, hfield, if_neg (by omega), if_neg (by omega), if_pos (.inl rfl)]

theorem splitCommands_last [Externs] (isRelated : Bool) (hraw : OnKeyedSession keys raw)
    (fuel : ℕ) :
    ∃ part, PartVerifies keys part ∧
      placeResponse keys isRelated true (signUnder keys raw) = part ∧
      splitCommands (fuel + 1) part = [part] := by
  obtain ⟨key, b, hblen, -, hbkey, hnext, -, hplace⟩ := hraw.placed isRelated true
  refine ⟨sealWith key b, partVerifies_sealWith hblen hbkey, ?_, ?_⟩
  · rw [hplace]
    exact append_nil _
  · exact splitCommands_sealWith hblen key hnext fuel

end Replies

end RustSmb
