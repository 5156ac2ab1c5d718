import RustSmb.Lib.Bytes

/-!
# SPNEGO tokens

Negotiation tokens are nested elements in DER: a tag, the length of the content, the content.  The
parsers walk over the fields of a token by offsets into its bytes.

## Main results

* `parse_build_tokens` — **a token is read back as it was built.**

Source: `rustsmb-auth/src/spnego.rs`.
-/

namespace RustSmb.Spnego

open List

/-- How a parser stops without a token: it returns `None`, slices outside the data, adds past the
largest offset, or does not leave a loop. -/
inductive Stop where
  | none | panic | overflow | endless
  deriving DecidableEq

/-- The result of a parser. -/
abbrev Parse (α : Type) : Type := Except Stop α

@[simp]
theorem ok_bind {α β : Type} (a : α) (f : α → Parse β) : (Except.ok a >>= f) = f a := rfl

/-- A value, or a reason to stop. -/
def orStop {α : Type} (stop : Stop) : Option α → Parse α
  | some a => .ok a
  | none => .error stop

/-- The sum of two offsets, which must fit the machine word. -/
def addOffset (a b : ℕ) : Parse ℕ := if a + b < 2 ^ 64 then .ok (a + b) else .error .overflow

/-- The state of a negotiation. -/
inductive NegState where
  | acceptCompleted | acceptIncomplete | reject | requestMic
  deriving DecidableEq

/-- The code of a state. -/
def NegState.code : NegState → UInt8
  | acceptCompleted => 0
  | acceptIncomplete => 1
  | reject => 2
  | requestMic => 3

/-- The state with a code. -/
def NegState.tryFrom (value : UInt8) : Option NegState :=
  [acceptCompleted, acceptIncomplete, reject, requestMic].find? (·.code = value)

/-- The first token of a negotiation. -/
structure NegTokenInit where
  mechTypes : List Bytes := []
  reqFlags : Option UInt32 := none
  mechToken : Option Bytes := none
  mechListMic : Option Bytes := none

/-- A later token of a negotiation. -/
structure NegTokenResp where
  negState : Option NegState := none
  supportedMech : Option Bytes := none
  responseToken : Option Bytes := none
  mechListMic : Option Bytes := none

/-! ### Building -/

/-- How many bytes a length takes. -/
def lengthSize (n : ℕ) : ℕ :=
  if n < 0x80 then 1 else if n < 0x100 then 2 else if n < 0x10000 then 3 else 4

/-- A length in the short or the long form. -/
def encodeDerLength (n : ℕ) : Bytes :=
  if n < 0x80 then [UInt8.ofNat n]
  else if n < 0x100 then [0x81, UInt8.ofNat n]
  else if n < 0x10000 then [0x82, UInt8.ofNat (n >>> 8), UInt8.ofNat n]
  else [0x83, UInt8.ofNat (n >>> 16), UInt8.ofNat (n >>> 8), UInt8.ofNat n]

/-- A tag, a length and a content. -/
def element (tag : UInt8) (content : Bytes) : Bytes :=
  tag :: (encodeDerLength content.length ++ content)

/-- An object identifier. -/
def encodeOid : Bytes → Bytes := element 0x06

/-- A string of bytes. -/
def encodeOctetString : Bytes → Bytes := element 0x04

/-- A list of mechanisms. -/
def encodeMechTypes (types : List Bytes) : Bytes := element 0x30 (types.flatMap encodeOid)

/-- The bytes of a later token. -/
def buildNegTokenResp (negState : Option NegState)
    (supportedMech responseToken mechListMic : Option Bytes) : Bytes :=
  let fields :=
    (negState.elim [] fun state => [0xa0, 0x03, 0x0a, 0x01, state.code]) ++
    (supportedMech.elim [] fun oid => element 0xa1 (encodeOid oid)) ++
    (responseToken.elim [] fun token => element 0xa2 (encodeOctetString token)) ++
    (mechListMic.elim [] fun mic => element 0xa3 (encodeOctetString mic))
  element 0xa1 (element 0x30 fields)

/-- The object identifier of SPNEGO itself. -/
def oid : Bytes := [0x2b, 0x06, 0x01, 0x05, 0x05, 0x02]

/-- The bytes of a first token. -/
def buildNegTokenInit (mechTypes : List Bytes) (mechToken : Option Bytes) : Bytes :=
  let fields := element 0xa0 (encodeMechTypes mechTypes) ++
    (mechToken.elim [] fun token => element 0xa2 (encodeOctetString token))
  element 0x60 (encodeOid oid ++ element 0xa0 (element 0x30 fields))

/-! ### Parsing -/

/-- A length with one more byte. -/
def pushByte (len : ℕ) (b : UInt8) : Parse ℕ :=
  let len := len * 256 + b.toNat
  if len < 2 ^ 64 then .ok len else .error .none

/-- The number of bytes that a length takes, and the length. -/
def parseDerLength : Bytes → Parse (ℕ × ℕ)
  | [] => .error .none
  | first :: rest =>
      if first < 0x80 then .ok (1, first.toNat)
      else
        let numBytes := (first &&& 0x7f).toNat
        if numBytes = 0 ∨ rest.length < numBytes then .error .none
        else do
          return (1 + numBytes, ← (rest.take numBytes).foldlM pushByte 0)

/-- The offset and the length of the content of the element at an offset; the parsers take for
granted that the length is encoded in as few bytes as possible. -/
def header (data : Bytes) (offset : ℕ) : Parse (ℕ × ℕ) := do
  let (_, len) ← parseDerLength (← orStop .panic (data.from? (offset + 1)))
  return (offset + 1 + lengthSize len, len)

/-- The header of an element that must have a tag. -/
def expect (data : Bytes) (offset : ℕ) (tag : UInt8) : Parse (ℕ × ℕ) := do
  if (← orStop .none data[offset]?) = tag then header data offset else throw .none

/-- The content of the element at an offset. -/
def content (data : Bytes) (offset : ℕ) : Parse Bytes := do
  let (start, len) ← header data offset
  orStop .panic (data.range? start (← addOffset start len))

/-- The content of the element at an offset, if it has this tag. -/
def content? (data : Bytes) (offset : ℕ) (tag : UInt8) : Parse (Option Bytes) := do
  if (← orStop .none data[offset]?) = tag then return some (← content data offset) else return none

/-- Go over the elements from an offset on while `more` holds of the offset and the tag. -/
def walk {σ : Type} (more : ℕ → UInt8 → Bool) (field : UInt8 → ℕ → ℕ → σ → Parse σ)
    (data : Bytes) : ℕ → ℕ → σ → Parse σ
  | 0, _, _ => .error .endless
  | fuel + 1, offset, acc =>
      match data[offset]?.filter (more offset) with
      | none => .ok acc
      | some tag => do
          let (start, len) ← header data offset
          let stop ← addOffset start len
          walk more field data fuel stop (← field tag start stop acc)

/-- Read a list of mechanisms. -/
def parseMechTypes (data : Bytes) : Parse (List Bytes) := do
  let (start, len) ← expect data 0 0x30
  let stop ← addOffset start len
  let push (_ : UInt8) (start stop : ℕ) (types : List Bytes) : Parse (List Bytes) := do
    return types ++ [← orStop .panic (data.range? start stop)]
  walk (fun offset tag => offset < stop && tag == 0x06) push data (data.length + 1) start []

/-- Go over the fields of the sequence in the element with this tag. -/
def parseFields {σ : Type} (field : UInt8 → ℕ → ℕ → σ → Parse σ) (data : Bytes) (offset : ℕ)
    (tag : UInt8) (empty : σ) : Parse σ := do
  let (start, _) ← expect data offset tag
  let (start, _) ← expect data start 0x30
  walk (fun _ _ => true) field data (data.length + 1) start empty

/-- Read one field of a first token. -/
def initField (data : Bytes) (tag : UInt8) (start stop : ℕ) (init : NegTokenInit) :
    Parse NegTokenInit := do
  if tag = 0xa0 then
    let types ← parseMechTypes (← orStop .panic (data.range? start stop))
    return { init with mechTypes := types }
  else if tag = 0xa2 then
    let token ← content? data start 0x04
    return { init with mechToken := token.or init.mechToken }
  else return init

/-- Where the token starts: after the header of the security interface, if there is one. -/
def skipGssHeader (data : Bytes) : Parse ℕ := do
  if data[0]? = some 0x60 then
    let (start, len) ← expect data (← header data 0).1 0x06
    addOffset start len
  else return 0

/-- Read a first token. -/
def parseNegTokenInit (data : Bytes) : Parse NegTokenInit :=
  if data.length < 4 then .error .none
  else do parseFields (initField data) data (← skipGssHeader data) 0xa0 {}

/-- Read one field of a later token. -/
def respField (data : Bytes) (tag : UInt8) (start _stop : ℕ) (resp : NegTokenResp) :
    Parse NegTokenResp := do
  if tag = 0xa0 then
    if (← orStop .none data[start]?) = 0x0a then
      return { resp with negState := NegState.tryFrom (← orStop .none data[start + 2]?) }
    else return resp
  else if tag = 0xa1 then
    let mech ← content? data start 0x06
    return { resp with supportedMech := mech.or resp.supportedMech }
  else if tag = 0xa2 then
    let token ← content? data start 0x04
    return { resp with responseToken := token.or resp.responseToken }
  else return resp

/-- Read a later token. -/
def parseNegTokenResp (data : Bytes) : Parse NegTokenResp :=
  if data.length < 2 then .error .none else parseFields (respField data) data 0 0xa1 {}

/-! ### Elements in the data -/

theorem length_encodeDerLength (n : ℕ) : (encodeDerLength n).length = lengthSize n := by
  unfold encodeDerLength lengthSize
  split_ifs <;> rfl

theorem length_element (tag : UInt8) (content : Bytes) :
    (element tag content).length = 1 + lengthSize content.length + content.length := by
  simp only [element, length_cons, length_append, length_encodeDerLength]
  omega

theorem parseDerLength_encode {n : ℕ} (h : n < 2 ^ 24) (rest : Bytes) :
    parseDerLength (encodeDerLength n ++ rest) = .ok (lengthSize n, n) := by
  have hshift : ∀ k, n >>> k = n / 2 ^ k := Nat.shiftRight_eq_div_pow n
  have hbyte : ∀ m, (UInt8.ofNat m).toNat = m % 256 := fun m => UInt8.toNat_ofNat'
  have hpush : ∀ len m, len < 2 ^ 16 →
      pushByte len (UInt8.ofNat m) = .ok (len * 256 + m % 256) := by
    intro len m hlen
    rw [pushByte, hbyte, if_pos (by omega)]
  unfold encodeDerLength lengthSize
  split_ifs with h₁ h₂ h₃
  · have hlt : UInt8.ofNat n < 0x80 := by
      rw [UInt8.lt_iff_toNat_lt, hbyte]
      exact (Nat.mod_le n 256).trans_lt h₁
    simp only [cons_append, nil_append, parseDerLength, if_pos hlt, hbyte]
    rw [Nat.mod_eq_of_lt (by omega)]
  all_goals
    simp (disch := omega) [parseDerLength, hpush, hshift, Nat.add_assoc]
    omega

/-- From an offset on, the data is an element and some rest. -/
def At (data : Bytes) (offset : ℕ) (tag : UInt8) (content rest : Bytes) : Prop :=
  data.drop offset = element tag content ++ rest

namespace At

theorem whole (tag : UInt8) (c : Bytes) : At (element tag c) 0 tag c [] :=
  (append_nil _).symm

variable {data c rest : Bytes} {offset : ℕ} {tag : UInt8} (h : At data offset tag c rest)

include h

theorem tag_eq : data[offset]? = some tag := by
  rw [← Nat.add_zero offset, ← getElem?_drop, h]
  rfl

theorem length_le : offset + 1 + lengthSize c.length + c.length ≤ data.length := by
  have hlen := congrArg List.length h
  rw [length_drop, length_append, length_element] at hlen
  omega

theorem drop_length : data.drop (offset + 1) = encodeDerLength c.length ++ (c ++ rest) := by
  rw [← drop_drop, h]
  simp [element]

theorem drop_content : data.drop (offset + 1 + lengthSize c.length) = c ++ rest := by
  rw [← drop_drop, h.drop_length, ← length_encodeDerLength, drop_left]

theorem drop_rest : data.drop (offset + 1 + lengthSize c.length + c.length) = rest := by
  rw [← drop_drop, h.drop_content, drop_left]

variable (hsize : data.length < 2 ^ 24)

include hsize

theorem header_eq : header data offset = .ok (offset + 1 + lengthSize c.length, c.length) := by
  have hlen := h.length_le
  rw [header, Bytes.from?_eq_some (by omega), h.drop_length]
  simp only [orStop, ok_bind]
  rw [parseDerLength_encode (by omega)]
  rfl

theorem addOffset_eq : addOffset (offset + 1 + lengthSize c.length) c.length =
    .ok (offset + 1 + lengthSize c.length + c.length) := by
  have hlen := h.length_le
  exact if_pos (by omega)

omit hsize in
theorem range_eq : data.range? (offset + 1 + lengthSize c.length)
    (offset + 1 + lengthSize c.length + c.length) = some c := by
  rw [Bytes.range?_eq_some (by omega) h.length_le, Nat.add_sub_cancel_left, Bytes.slice,
    h.drop_content, take_left]

theorem expect_eq : expect data offset tag =
    .ok (offset + 1 + lengthSize c.length, c.length) := by
  rw [expect, h.tag_eq]
  simpa [orStop] using h.header_eq hsize

theorem content?_eq : content? data offset tag = .ok (some c) := by
  rw [content?, h.tag_eq]
  simp only [orStop, ok_bind, if_true, content, h.header_eq hsize, h.addOffset_eq hsize, h.range_eq]
  rfl

end At

/-- An element of a walk, and what the parser makes of it. -/
structure Field (σ : Type) where
  tag : UInt8
  content : Bytes
  apply : σ → σ

section Walk

variable {σ : Type} {more : ℕ → UInt8 → Bool} {field : UInt8 → ℕ → ℕ → σ → Parse σ}
  {data : Bytes} {offset : ℕ} {fields : List (Field σ)} {acc : σ}

/-- The bytes of a field. -/
def Field.bytes (f : Field σ) : Bytes := element f.tag f.content

/-- What some fields make of a token, one after the other. -/
def Field.applyAll (fields : List (Field σ)) (acc : σ) : σ :=
  fields.foldl (fun acc f => f.apply acc) acc

/-- The parser makes of the element what it should, wherever it stands in the data. -/
def Field.ReadBy (field : UInt8 → ℕ → ℕ → σ → Parse σ) (data : Bytes) (f : Field σ) : Prop :=
  ∀ offset acc rest, At data offset f.tag f.content rest →
    field f.tag (offset + 1 + lengthSize f.content.length)
      (offset + 1 + lengthSize f.content.length + f.content.length) acc = .ok (f.apply acc)

/-- **What a walk over elements up to the end of the data makes of them.** -/
theorem walk_eq (hsize : data.length < 2 ^ 24)
    (hdata : data.drop offset = fields.flatMap Field.bytes)
    (hmore : ∀ f ∈ fields, ∀ o < data.length, more o f.tag = true)
    (hfield : ∀ f ∈ fields, f.ReadBy field data) {fuel : ℕ} (hfuel : data.length - offset < fuel) :
    walk more field data fuel offset acc = .ok (Field.applyAll fields acc) := by
  induction fields generalizing offset acc fuel with
  | nil =>
    obtain ⟨fuel, rfl⟩ := Nat.exists_eq_add_of_lt hfuel
    have hend : data[offset]? = none := by simpa using hdata
    rw [walk, hend]
    rfl
  | cons f fields ih =>
    obtain ⟨fuel, rfl⟩ := Nat.exists_eq_add_of_lt hfuel
    have h : At data offset f.tag f.content (fields.flatMap Field.bytes) := hdata
    have hlen := h.length_le
    rw [walk, h.tag_eq, Option.filter_some, if_pos (hmore f mem_cons_self offset (by omega))]
    simp only [h.header_eq hsize, ok_bind, h.addOffset_eq hsize,
      hfield f mem_cons_self offset acc _ h]
    exact ih h.drop_rest (fun g hg => hmore g (mem_cons_of_mem f hg))
      (fun g hg => hfield g (mem_cons_of_mem f hg)) (by omega)

theorem parseFields_eq {tag : UInt8} (hsize : data.length < 2 ^ 24)
    (h : At data offset tag (element 0x30 (fields.flatMap Field.bytes)) [])
    (hfield : ∀ f ∈ fields, f.ReadBy field data) :
    parseFields field data offset tag acc = .ok (Field.applyAll fields acc) := by
  have hseq : At data _ 0x30 (fields.flatMap Field.bytes) [] := h.drop_content
  rw [parseFields, h.expect_eq hsize]
  simp only [ok_bind]
  rw [hseq.expect_eq hsize]
  exact walk_eq hsize (hseq.drop_content.trans (append_nil _)) (fun _ _ _ _ => rfl) hfield
    (by omega)

end Walk

theorem parseMechTypes_encode (types : List Bytes)
    (hsize : (encodeMechTypes types).length < 2 ^ 24) :
    parseMechTypes (encodeMechTypes types) = .ok types := by
  have h : At (encodeMechTypes types) 0 0x30 (types.flatMap encodeOid) [] := .whole _ _
  have hlen : (encodeMechTypes types).length = _ := length_element 0x30 (types.flatMap encodeOid)
  let fields : List (Field (List Bytes)) := types.map fun oid => ⟨0x06, oid, (· ++ [oid])⟩
  have hfold : Field.applyAll fields [] = types := by
    rw [Field.applyAll, foldl_map, foldl_append_eq_append, nil_append,
      ← flatMap_def, flatMap_singleton']
  rw [parseMechTypes, h.expect_eq hsize]
  simp only [ok_bind, h.addOffset_eq hsize]
  refine Eq.trans ?_ (congrArg Except.ok hfold)
  refine walk_eq hsize ?_ ?_ ?_ (Nat.lt_succ_of_le (Nat.sub_le _ _))
  · rw [h.drop_content, append_nil, flatMap_map]
    rfl
  · intro f hf offset hoff
    obtain ⟨oid, -, rfl⟩ := mem_map.1 hf
    exact Bool.and_eq_true_iff.2 ⟨decide_eq_true (by omega), rfl⟩
  · intro f hf offset acc rest hoid
    obtain ⟨oid, -, rfl⟩ := mem_map.1 hf
    dsimp only
    rw [hoid.range_eq]
    rfl

section

variable {negState : Option NegState} {mech token mic : Option Bytes} {types : List Bytes}

theorem parse_build_resp (hsize : (buildNegTokenResp negState mech token mic).length < 2 ^ 24) :
    parseNegTokenResp (buildNegTokenResp negState mech token mic) =
      .ok { negState := negState, supportedMech := mech, responseToken := token } := by
  let fields : List (Field NegTokenResp) :=
    (negState.toList.map fun state =>
      ⟨0xa0, [0x0a, 0x01, state.code], ({ · with negState := some state })⟩) ++
    (mech.toList.map fun oid => ⟨0xa1, encodeOid oid, ({ · with supportedMech := some oid })⟩) ++
    (token.toList.map fun token =>
      ⟨0xa2, encodeOctetString token, ({ · with responseToken := some token })⟩) ++
    (mic.toList.map fun mic => ⟨0xa3, encodeOctetString mic, id⟩)
  have hbuild : buildNegTokenResp negState mech token mic =
      element 0xa1 (element 0x30 (fields.flatMap Field.bytes)) := by
    cases negState <;> cases mech <;> cases token <;> cases mic <;>
      simp [buildNegTokenResp, fields, Field.bytes, element, encodeDerLength]
  have hfold : Field.applyAll fields {} =
      { negState := negState, supportedMech := mech, responseToken := token } := by
    cases negState <;> cases mech <;> cases token <;> cases mic <;> rfl
  rw [← hfold]
  rw [hbuild] at hsize ⊢
  have h := At.whole 0xa1 (element 0x30 (fields.flatMap Field.bytes))
  generalize element 0xa1 _ = data at hsize h ⊢
  have hlen := h.length_le
  rw [length_element] at hlen
  rw [parseNegTokenResp, if_neg (by omega)]
  refine parseFields_eq hsize h fun f hf offset acc rest hat => ?_
  have hinner := hat.drop_content
  simp only [fields, mem_append, mem_map, Option.mem_toList] at hf
  obtain ((⟨state, -, rfl⟩ | ⟨oid, -, rfl⟩) | ⟨token, -, rfl⟩) | ⟨mic, -, rfl⟩ := hf
  · have hcode : NegState.tryFrom state.code = some state := by cases state <;> rfl
    have hfirst := congrArg (·[0]?) hinner
    have hthird := congrArg (·[2]?) hinner
    simp only [getElem?_drop, Nat.add_zero] at hfirst hthird
    rw [respField, if_pos rfl, hfirst, hthird]
    simp [orStop, hcode]
  · have hoid : At data _ 0x06 oid rest := hinner
    simp [respField, hoid.content?_eq hsize]
  · have htoken : At data _ 0x04 token rest := hinner
    simp [respField, htoken.content?_eq hsize]
  · rfl

theorem parse_build_init (hsize : (buildNegTokenInit types token).length < 2 ^ 24) :
    parseNegTokenInit (buildNegTokenInit types token) =
      .ok { mechTypes := types, mechToken := token } := by
  let fields : List (Field NegTokenInit) :=
    ⟨0xa0, encodeMechTypes types, ({ · with mechTypes := types })⟩ ::
      token.toList.map fun token =>
        ⟨0xa2, encodeOctetString token, ({ · with mechToken := some token })⟩
  have hbuild : buildNegTokenInit types token =
      element 0x60 (encodeOid oid ++ element 0xa0 (element 0x30 (fields.flatMap Field.bytes))) := by
    cases token <;> simp [buildNegTokenInit, fields, Field.bytes]
  have hfold : Field.applyAll fields {} = { mechTypes := types, mechToken := token } := by
    cases token <;> rfl
  rw [← hfold]
  rw [hbuild] at hsize ⊢
  have hgss := At.whole 0x60
    (encodeOid oid ++ element 0xa0 (element 0x30 (fields.flatMap Field.bytes)))
  generalize element 0x60 _ = data at hsize hgss ⊢
  have hoid : At data _ 0x06 oid (element 0xa0 (element 0x30 (fields.flatMap Field.bytes)) ++ []) :=
    hgss.drop_content.trans (append_assoc _ _ _)
  have hinit : At data _ 0xa0 (element 0x30 (fields.flatMap Field.bytes)) [] := hoid.drop_rest
  have hlen := hinit.length_le
  have hspnego : oid.length = 6 := rfl
  rw [parseNegTokenInit, if_neg (by omega), skipGssHeader, hgss.tag_eq, if_pos rfl,
    hgss.header_eq hsize]
  simp only [ok_bind]
  rw [hoid.expect_eq hsize]
  simp only [ok_bind, hoid.addOffset_eq hsize]
  refine parseFields_eq hsize hinit fun f hf offset acc rest hat => ?_
  have hinner := hat.drop_content
  have hrange := hat.range_eq
  have hfield := hat.length_le
  simp only [fields, mem_cons, mem_map, Option.mem_toList] at hf
  obtain rfl | ⟨token, -, rfl⟩ := hf
  · dsimp only at hfield
    have htypes := parseMechTypes_encode types (by omega)
    simp only [initField, if_true, hrange, orStop, ok_bind, htypes]
    rfl
  · have htoken : At data _ 0x04 token rest := hinner
    simp [initField, htoken.content?_eq hsize]

/-- **A token is read back as it was built.** -/
theorem parse_build_tokens :
    (∀ negState mech token mic, (buildNegTokenResp negState mech token mic).length < 2 ^ 24 →
      parseNegTokenResp (buildNegTokenResp negState mech token mic) =
        .ok { negState := negState, supportedMech := mech, responseToken := token }) ∧
      ∀ types token, (buildNegTokenInit types token).length < 2 ^ 24 →
        parseNegTokenInit (buildNegTokenInit types token) =
          .ok { mechTypes := types, mechToken := token } :=
  ⟨fun _ _ _ _ => parse_build_resp, fun _ _ => parse_build_init⟩

/-- Two mechanisms, one of them empty, and a token. -/
theorem parse_build_mechanism_list :
    parseNegTokenInit (buildNegTokenInit [oid, []] (some [1, 2])) =
      .ok { mechTypes := [oid, []], mechToken := some [1, 2] } :=
  parse_build_tokens.2 [oid, []] (some [1, 2]) (by decide)

end

end RustSmb.Spnego
