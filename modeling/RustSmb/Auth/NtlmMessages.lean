import RustSmb.Auth.Ntlm

/-!
# What NTLM messages carry

A message addresses its variable fields by security buffers: a length and an offset.  The attributes
of the target information follow one another up to one of identifier 0.

## Main results

* `AuthenticateMessage.parse_carries_iff` — **when a field is what its buffer addresses.**
* `ChallengeMessage.parse_build` — a CHALLENGE is read as it was built.
* `AvPair.avReaders_agree` — the two readers of attributes agree.

Source: `rustsmb-auth/src/ntlm/`.
-/

namespace RustSmb

open List Bytes

/-- The bytes that the security buffer at `off` stands for. -/
def addressed (data : Bytes) (off : ℕ) : Bytes :=
  data.slice (data.u32 (off + 4)).toNat (data.u16 off).toNat

/-- The security buffer at `off` lies in the message; one of length zero does anywhere. -/
def LiesInside (data : Bytes) (off : ℕ) : Prop :=
  (data.u16 off).toNat = 0 ∨ (data.u32 (off + 4)).toNat + (data.u16 off).toNat ≤ data.length

section Buffers

variable {data : Bytes} {off : ℕ} {flags : UInt32}

theorem securityBuffer_eq (h : LiesInside data off) :
    securityBuffer data off = addressed data off := by
  simp only [securityBuffer, addressed]
  split
  · rfl
  case isFalse hno =>
    have hzero : (data.u16 off).toNat = 0 := by
      rcases h with hzero | hle
      · exact hzero
      · omega
    simp [hzero, slice]

theorem parseString_nil (flags : UInt32) : parseString [] flags = some "" := by
  unfold parseString
  split
  · rfl
  · exact dif_pos "".isValidUTF8

theorem securityText_eq (h : LiesInside data off) {s : String}
    (hs : parseString (addressed data off) flags = some s) : securityText data flags off = s := by
  simp only [securityText, securityBuffer_eq h]
  split
  case isTrue hempty =>
    rw [isEmpty_iff.mp hempty, parseString_nil] at hs
    exact Option.some.inj hs
  · rw [hs, Option.getD_some]

end Buffers

/-! ### AUTHENTICATE -/

namespace AuthenticateMessage

/-- The fixed part of an authenticate message. -/
def Headed (data : Bytes) : Prop :=
  64 ≤ data.length ∧ data.take 8 = NTLM_SIGNATURE ∧ data.u32 8 = 3

/-- The six buffers lie in the message, and the three names are text. -/
def WellFormed (data : Bytes) : Prop :=
  (∀ off ∈ [12, 20, 28, 36, 44, 52], LiesInside data off) ∧
    ∀ off ∈ [28, 36, 44], (parseString (addressed data off) (data.u32 60)).isSome

/-- Every field is what its buffer addresses. -/
def Carries (data : Bytes) (m : AuthenticateMessage) : Prop :=
  m.lmResponse = addressed data 12 ∧ m.ntResponse = addressed data 20 ∧
    parseString (addressed data 28) (data.u32 60) = some m.domainName ∧
    parseString (addressed data 36) (data.u32 60) = some m.userName ∧
    parseString (addressed data 44) (data.u32 60) = some m.workstation ∧
    m.encryptedSessionKey = addressed data 52

variable {data : Bytes} {m : AuthenticateMessage}

theorem headed_of_parse (h : parse data = .ok m) : Headed data := by
  unfold parse at h
  split at h
  · cases h
  split at h
  · cases h
  split at h
  · cases h
  · exact ⟨by omega, by tauto, by tauto⟩

theorem parse_of_headed (h : Headed data) : ∃ m, parse data = .ok m := by
  rw [parse, if_neg (by have := h.1; omega), if_neg (fun hne => hne h.2.1),
    if_neg (fun hne => hne h.2.2)]
  exact ⟨_, rfl⟩

theorem carries_of_wellFormed (hwf : WellFormed data) (h : parse data = .ok m) :
    Carries data m := by
  obtain ⟨hinside, hnames⟩ := hwf
  have hbuffer : ∀ off ∈ [12, 20, 28, 36, 44, 52], securityBuffer data off = addressed data off :=
    fun off hoff => securityBuffer_eq (hinside off hoff)
  have hname : ∀ off ∈ [28, 36, 44], parseString (addressed data off) (data.u32 60) =
      some (securityText data (data.u32 60) off) := by
    intro off hoff
    obtain ⟨s, hs⟩ := Option.isSome_iff_exists.mp (hnames off hoff)
    rw [hs, securityText_eq (hinside off (by simp at hoff ⊢; omega)) hs]
  obtain ⟨hlen, hsig, htype⟩ := headed_of_parse h
  rw [parse, if_neg (by omega), if_neg (fun hne => hne hsig), if_neg (fun hne => hne htype)] at h
  cases h
  exact ⟨hbuffer 12 (by simp), hbuffer 20 (by simp), hname 28 (by simp), hname 36 (by simp),
    hname 44 (by simp), hbuffer 52 (by simp)⟩

/-- **AUTHENTICATE is accepted on its header alone**: what is accepted is well formed and
carries what its buffers address, and what is malformed is no anonymous logon, exactly for
the messages that are well formed or fail the check of the header. -/
theorem parse_carries_iff (data : Bytes) :
    ((∀ m, parse data = .ok m → WellFormed data ∧ Carries data m) ∧
        (¬ WellFormed data → ∀ m, parse data = .ok m → m.isAnonymous = false)) ↔
      (Headed data → WellFormed data) := by
  constructor
  · rintro ⟨hparse, -⟩ hheaded
    obtain ⟨m, hm⟩ := parse_of_headed hheaded
    exact (hparse m hm).1
  · intro hwf
    have hall : ∀ m, parse data = .ok m → WellFormed data := fun m hm => hwf (headed_of_parse hm)
    exact ⟨fun m hm => ⟨hall m hm, carries_of_wellFormed (hall m hm) hm⟩,
      fun hbad m hm => absurd (hall m hm) hbad⟩

/-- A header whose NT response starts where the message ends. -/
def Sample.truncated : Bytes :=
  NTLM_SIGNATURE ++ ofU32 3 ++ zeros 8 ++
    (ofU16 24 ++ ofU16 24 ++ ofU32 64) ++ zeros 36

/-- **A truncated message passes for an anonymous one.** -/
theorem Sample.truncated_anonymous :
    (∃ m, parse truncated = .ok m ∧ m.isAnonymous = true) ∧ ¬ WellFormed truncated := by
  refine ⟨⟨_, rfl, by decide +kernel⟩, fun hwf => ?_⟩
  have hnt : LiesInside truncated 20 := hwf.1 20 (by simp)
  rcases hnt with hzero | hle
  · exact absurd hzero (by decide +kernel)
  · exact absurd hle (by decide +kernel)

end AuthenticateMessage

/-! ### CHALLENGE -/

theorem Utf16.length_bytes_even (s : String) : (Utf16.bytes s).length % 2 = 0 := by
  rw [Utf16.bytes]
  induction Utf16.encode s with
  | nil => rfl
  | cons u us ih =>
    rw [flatMap_cons, length_append, length_ofU16]
    omega

theorem parseString_encodeString (s : String) (flags : UInt32) :
    parseString (encodeString s flags) flags = some s := by
  unfold parseString encodeString
  split
  · rw [if_neg (by simp [Utf16.length_bytes_even]), Utf16.decode_units_bytes]
  · rw [Array.toArray_toList]
    exact dif_pos s.isValidUTF8

theorem NtlmVersion.parse_toBytes (v : NtlmVersion) : NtlmVersion.parse v.toBytes = some v := by
  have hbuild : v.toBytes.u16 2 = v.build := by
    rw [NtlmVersion.toBytes, append_assoc, u16_append_of_le _ (by simp)]
    exact u16_ofU16_append v.build _
  rw [NtlmVersion.parse, if_neg (by simp [NtlmVersion.toBytes]), hbuild]
  rfl

namespace ChallengeMessage

open Bytes

/-- The fields of a built message at their offsets. -/
structure Holds (data : Bytes) (m : ChallengeMessage) : Prop where
  length : 56 ≤ data.length
  signature : data.take 8 = NTLM_SIGNATURE
  type : data.u32 8 = 2
  flags : data.u32 20 = m.flags
  serverChallenge : data.slice 24 8 = m.serverChallenge
  version : data.slice 48 8 = (m.version.map NtlmVersion.toBytes).getD (zeros 8)
  nameInside : LiesInside data 12
  name : addressed data 12 = encodeString m.targetName m.flags
  infoInside : LiesInside data 40
  info : addressed data 40 = m.targetInfo

theorem holds_build (m : ChallengeMessage) (hchal : m.serverChallenge.length = 8)
    (hname : (encodeString m.targetName m.flags).length < UInt16.size)
    (hinfo : m.targetInfo.length < UInt16.size) : Holds m.build m := by
  generalize hn : encodeString m.targetName m.flags = name at hname
  have hvers : ((m.version.map NtlmVersion.toBytes).getD (zeros 8)).length = 8 := by
    cases m.version <;> simp [NtlmVersion.toBytes]
  have hsig : NTLM_SIGNATURE.length = 8 := rfl
  have hlen : m.build.length = 56 + name.length + m.targetInfo.length := by
    simp [build, hsig, hchal, hvers, hn]
    omega
  have hnameLen : (m.build.u16 12).toNat = name.length := by
    rw [← UInt16.toNat_ofNat_of_lt' hname]
    simp [build, hn, hsig, u16_append_of_le, u16_ofU16_append]
  have hnameOff : (m.build.u32 16).toNat = 56 := by
    simp [build, hsig, u32_append_of_le, u32_ofU32_append]
  have hinfoLen : (m.build.u16 40).toNat = m.targetInfo.length := by
    rw [← UInt16.toNat_ofNat_of_lt' hinfo]
    simp [build, hsig, hchal, u16_append_of_le, u16_ofU16_append]
  have hinfoOff : (m.build.u32 44).toNat = 56 + name.length := by
    rw [← UInt32.toNat_ofNat_of_lt' (show 56 + name.length < UInt32.size by
      simp only [UInt16.size, UInt32.size] at hname ⊢; omega)]
    simp [build, hn, hsig, hchal, u32_append_of_le, u32_ofU32_append]
  have hpayload : m.build.drop 56 = name ++ m.targetInfo := by
    simp [build, hn, hsig, hchal, hvers, drop_append, drop_of_length_le]
  refine ⟨by omega, by simp [build, hsig], ?_, ?_, ?_, ?_, Or.inr ?_, ?_, Or.inr ?_, ?_⟩
  · simp [build, hsig, u32_append_of_le, u32_ofU32_append]
  · simp [build, hsig, u32_append_of_le, u32_ofU32_append]
  · simp [build, slice, hsig, hchal, drop_append, drop_of_length_le]
  · simp [build, slice, hsig, hchal, hvers, drop_append, drop_of_length_le]
  · rw [hnameLen, hnameOff]
    omega
  · rw [addressed, hnameLen, hnameOff, slice, hpayload, hn, take_left]
  · rw [hinfoLen, hinfoOff]
    omega
  · rw [addressed, hinfoLen, hinfoOff, slice, ← drop_drop, hpayload, drop_left, take_length]

/-- **A CHALLENGE is read as it was built**, with its version if the flags ask for it. -/
theorem parse_build (m : ChallengeMessage) (hchallenge : m.serverChallenge.length = 8)
    (hname : (encodeString m.targetName m.flags).length < UInt16.size)
    (hinfo : m.targetInfo.length < UInt16.size) :
    ∃ r, parse m.build = .ok r ∧ r.targetName = m.targetName ∧ r.flags = m.flags ∧
      r.serverChallenge = m.serverChallenge ∧ r.targetInfo = m.targetInfo ∧
      (NtlmFlags.has m.flags NtlmFlags.NEGOTIATE_VERSION = true →
        ∀ v, m.version = some v → r.version = some v) := by
  have h := holds_build m hchallenge hname hinfo
  generalize m.build = data at h
  rw [parse, if_neg (Nat.not_lt.mpr h.length), if_neg (fun hne => hne h.signature),
    if_neg (fun hne => hne h.type), h.flags]
  refine ⟨_, rfl, ?_, rfl, h.serverChallenge, ?_, fun hflag v hv => ?_⟩
  · refine securityText_eq h.nameInside ?_
    rw [h.name, parseString_encodeString]
  · rw [securityBuffer_eq h.infoInside, h.info]
  · simp [hflag, h.length, h.version, hv, NtlmVersion.parse_toBytes]

/-- A challenge of the server is read back. -/
theorem parse_build_new :
    ∃ r, parse (new "SRV" (zeros 8) [0, 0, 0, 0] NtlmFlags.serverDefault).build = .ok r ∧
      r.targetName = "SRV" ∧ r.version = some .current := by
  obtain ⟨r, hr, hname, -, -, -, hvers⟩ :=
    parse_build (new "SRV" (zeros 8) [0, 0, 0, 0] NtlmFlags.serverDefault) (by decide)
      (by decide +kernel) (by decide)
  exact ⟨r, hr, hname, hvers (by decide) _ rfl⟩

end ChallengeMessage

/-! ### Target information -/

/-- An attribute of the target. -/
structure AvPair where
  id : UInt16
  value : Bytes
  deriving DecidableEq

namespace AvPair

def toBytes (pair : AvPair) : Bytes := avPair pair.id pair.value

/-- Read an attribute at the start of `data`, with the number of bytes it takes. -/
def parse (data : Bytes) : Option (AvPair × ℕ) :=
  if data.length < 4 then none
  else
    let len := (data.u16 2).toNat
    if data.length < 4 + len then none else some (⟨data.u16 0, data.slice 4 len⟩, 4 + len)

def isEol (pair : AvPair) : Bool := pair.id == 0

end AvPair

/-- Read attributes from `offset` on; `fuel` bounds their number by the number of bytes. -/
def parseTargetInfoFrom (data : Bytes) : ℕ → ℕ → List AvPair
  | 0, _ => []
  | fuel + 1, offset =>
      if offset < data.length then
        match AvPair.parse (data.drop offset) with
        | some (pair, len) =>
            if pair.isEol then [pair] else pair :: parseTargetInfoFrom data fuel (offset + len)
        | none => []
      else []

def parseTargetInfo (data : Bytes) : List AvPair := parseTargetInfoFrom data (data.length + 1) 0

namespace AvPair

variable {data : Bytes} {pair : AvPair} {pairs : List AvPair} {fuel offset len : ℕ}

theorem length_toBytes (pair : AvPair) : pair.toBytes.length = 4 + pair.value.length := by
  simp [toBytes, avPair]
  omega

theorem parse_eq_some_iff : parse data = some (pair, len) ↔
    4 + (data.u16 2).toNat ≤ data.length ∧
      pair = ⟨data.u16 0, data.slice 4 (data.u16 2).toNat⟩ ∧ len = 4 + (data.u16 2).toNat := by
  simp only [parse]
  split
  · simp only [reduceCtorEq, false_iff]
    omega
  split
  · simp only [reduceCtorEq, false_iff]
    omega
  · rw [Option.some.injEq, Prod.mk.injEq]
    exact ⟨fun ⟨hpair, hlen⟩ => ⟨by omega, hpair.symm, hlen.symm⟩,
      fun ⟨_, hpair, hlen⟩ => ⟨hpair.symm, hlen.symm⟩⟩

theorem toBytes_of_parse (h : parse data = some (pair, len)) :
    4 ≤ len ∧ len ≤ data.length ∧ pair.toBytes = data.take len := by
  obtain ⟨hfits, rfl, rfl⟩ := parse_eq_some_iff.mp h
  have hvalue : (data.slice 4 (data.u16 2).toNat).length = (data.u16 2).toNat := by
    simp only [slice, length_take, length_drop]
    omega
  refine ⟨by omega, hfits, ?_⟩
  rw [toBytes, avPair, hvalue, UInt16.ofNat_toNat, ofU16_u16 (by omega),
    ofU16_u16 (by omega), slice, slice, slice, drop_zero,
    ← take_add, ← take_add]

theorem parse_toBytes_append (h : pair.value.length < UInt16.size) (after : Bytes) :
    parse (pair.toBytes ++ after) = some (pair, pair.toBytes.length) := by
  have hlen : ((pair.toBytes ++ after).u16 2).toNat = pair.value.length := by
    rw [← UInt16.toNat_ofNat_of_lt' h]
    simp [toBytes, avPair, u16_append_of_le, u16_ofU16_append]
  have hid : (pair.toBytes ++ after).u16 0 = pair.id := by simp [toBytes, avPair, u16_ofU16_append]
  have hvalue : (pair.toBytes ++ after).slice 4 pair.value.length = pair.value := by
    simp [toBytes, avPair, slice, drop_append, drop_of_length_le]
  refine parse_eq_some_iff.mpr ⟨?_, ?_, ?_⟩
  · rw [hlen, length_append, length_toBytes]
    omega
  · rw [hlen, hid, hvalue]
  · rw [hlen, length_toBytes]

/-- A turn of `validateAvPairs` fails where the other reader finds no attribute. -/
theorem validateAvPairs_of_none (h : offset < data.length)
    (hparse : parse (data.drop offset) = none) :
    validateAvPairs data (fuel + 1) offset = .error .malformedToken := by
  rw [validateAvPairs, if_pos h]
  split
  · rfl
  refine if_pos (Nat.lt_of_not_le fun hle => ?_)
  have hfits : 4 + (u16 (data.drop offset) 2).toNat ≤ (data.drop offset).length := by
    rw [u16_drop, length_drop]
    omega
  have hsome := parse_eq_some_iff.mpr ⟨hfits, rfl, rfl⟩
  rw [hsome] at hparse
  cases hparse

theorem validateAvPairs_of_some (h : offset < data.length)
    (hparse : parse (data.drop offset) = some (pair, len)) :
    validateAvPairs data (fuel + 1) offset =
      if pair.isEol then .ok () else validateAvPairs data fuel (offset + len) := by
  obtain ⟨hfits, rfl, rfl⟩ := parse_eq_some_iff.mp hparse
  rw [u16_drop, length_drop] at hfits
  rw [validateAvPairs, if_pos h, if_neg (by omega)]
  simp only [u16_drop, isEol, Nat.add_zero, beq_iff_eq, Nat.add_assoc]
  exact if_neg (by omega)

theorem endsInEol_cons (h : pair.isEol = false) :
    (pair :: pairs).getLast?.any isEol = pairs.getLast?.any isEol := by
  cases pairs with
  | nil => simp [h]
  | cons next rest => rw [getLast?_cons_cons]

/-- What both readers do from an offset on, by induction on the attributes that are left. -/
theorem avReaders_agree_from (hoff : offset ≤ data.length)
    (hfuel : data.length - offset < fuel) :
    (parseTargetInfoFrom data fuel offset).flatMap toBytes <+: data.drop offset ∧
      (validateAvPairs data fuel offset = .ok () ↔
        (parseTargetInfoFrom data fuel offset).getLast?.any isEol ∨
          (parseTargetInfoFrom data fuel offset).flatMap toBytes = data.drop offset) := by
  induction fuel generalizing offset with
  | zero => omega
  | succ fuel ih =>
    rw [parseTargetInfoFrom]
    rcases Nat.lt_or_eq_of_le hoff with hlt | rfl
    · rw [if_pos hlt]
      cases hparse : parse (data.drop offset) with
      | none => simp [validateAvPairs_of_none hlt hparse, Nat.not_le.mpr hlt]
      | some found =>
        obtain ⟨pair, len⟩ := found
        obtain ⟨hlow, hfits, hbytes⟩ := toBytes_of_parse hparse
        have hsplit : data.drop offset = pair.toBytes ++ data.drop (offset + len) := by
          rw [hbytes, ← drop_drop, take_append_drop]
        rw [validateAvPairs_of_some hlt hparse, hsplit]
        cases heol : pair.isEol with
        | true => simp [heol]
        | false =>
          rw [length_drop] at hfits
          obtain ⟨hfirst, hiff⟩ := ih (show offset + len ≤ data.length by omega) (by omega)
          simp only [heol, Bool.false_eq_true, if_false, flatMap_cons, endsInEol_cons heol,
            prefix_append_right_inj, append_cancel_left_eq]
          exact ⟨hfirst, hiff⟩
    · simp [validateAvPairs]

theorem parseTargetInfoFrom_succ (before after : Bytes) (h : pair.value.length < UInt16.size) :
    parseTargetInfoFrom (before ++ (pair.toBytes ++ after)) (fuel + 1) before.length =
      if pair.isEol then [pair]
      else pair :: parseTargetInfoFrom (before ++ pair.toBytes ++ after) fuel
        (before ++ pair.toBytes).length := by
  have hlt : before.length < (before ++ (pair.toBytes ++ after)).length := by simp [length_toBytes]
  rw [parseTargetInfoFrom, if_pos hlt, drop_left, parse_toBytes_append h,
    append_assoc, length_append]

theorem parseTargetInfoFrom_append (before : Bytes) {last : AvPair} (hlast : last.isEol = true)
    (hpairs : ∀ p ∈ pairs, p.isEol = false)
    (hsize : ∀ p ∈ pairs ++ [last], p.value.length < UInt16.size)
    (hfuel : ((pairs ++ [last]).flatMap toBytes).length < fuel) :
    parseTargetInfoFrom (before ++ (pairs ++ [last]).flatMap toBytes) fuel before.length =
      pairs ++ [last] := by
  induction pairs generalizing before fuel with
  | nil =>
    obtain ⟨fuel, rfl⟩ := Nat.exists_eq_add_of_lt hfuel
    rw [nil_append, flatMap_cons,
      parseTargetInfoFrom_succ before _ (hsize last (by simp)), hlast, if_pos rfl]
  | cons pair rest ih =>
    rw [cons_append, flatMap_cons] at hfuel ⊢
    rw [length_append, length_toBytes] at hfuel
    obtain ⟨fuel, rfl⟩ := Nat.exists_eq_add_of_lt hfuel
    rw [parseTargetInfoFrom_succ before _ (hsize pair (by simp)), hpairs pair (by simp),
      if_neg Bool.false_ne_true]
    rw [ih _ (fun p hp => hpairs p (by simp [hp])) (fun p hp => hsize p (by simp_all)) (by omega)]

/-- **The readers of attributes agree**: the check accepts exactly the data whose attributes are
all read, or up to an end of list; and a list with one end of list, at its end, is read as it was
written. -/
theorem avReaders_agree (data : Bytes) :
    (validateAvPairs data (data.length + 1) 0 = .ok () ↔
      (parseTargetInfo data).flatMap toBytes <+: data ∧
        ((parseTargetInfo data).getLast?.any isEol ∨
          (parseTargetInfo data).flatMap toBytes = data)) ∧
      ∀ (pairs : List AvPair) (last : AvPair), last.isEol = true →
        (∀ p ∈ pairs, p.isEol = false) →
        (∀ p ∈ pairs ++ [last], p.value.length < UInt16.size) →
        parseTargetInfo ((pairs ++ [last]).flatMap toBytes) = pairs ++ [last] := by
  obtain ⟨hfirst, hiff⟩ := @avReaders_agree_from data (data.length + 1) 0 (Nat.zero_le _) (by omega)
  rw [drop_zero] at hfirst hiff
  refine ⟨hiff.trans (iff_and_self.mpr fun _ => hfirst), ?_⟩
  intro pairs last hlast hpairs hsize
  exact @parseTargetInfoFrom_append pairs _ [] last hlast hpairs hsize (Nat.lt_succ_self _)

/-- A name and the end of the list. -/
theorem avReaders_agree_two :
    parseTargetInfo (AvPair.toBytes ⟨2, [65, 0]⟩ ++ AvPair.toBytes ⟨0, []⟩) =
      [⟨2, [65, 0]⟩, ⟨0, []⟩] :=
  (avReaders_agree []).2 [⟨2, [65, 0]⟩] ⟨0, []⟩ rfl (by decide) (by decide)

end AvPair

end RustSmb
