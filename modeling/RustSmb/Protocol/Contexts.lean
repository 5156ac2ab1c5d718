import Mathlib.Algebra.Order.BigOperators.Group.List
import Mathlib.Data.List.Forall2
import RustSmb.Protocol.Create

/-!
# Chains of create contexts

A context starts with a header of 16 bytes: where its name and its data are, and how far away the
next context is.  The walk along a request is modelled here with every access checked: `none` is an
access outside a slice, or a walk that does not end.

## Main results

* `parseCreateContexts_inside` — the walk ends, stays inside the buffer and goes forward.
* `CreateContextBuilder.build_finds` — contexts are found as they were built.

Source: `rustsmb-protocol/src/commands/create.rs`.
-/

namespace RustSmb

open Nat List Option Bytes

/-- The sixteen bytes at the start of an entry. -/
structure CreateContextHeader where
  next : UInt32
  nameOffset : UInt16
  nameLength : UInt16
  dataOffset : UInt16
  dataLength : UInt32

namespace CreateContextHeader

def parse (data : Bytes) : Option CreateContextHeader :=
  if data.length < 16 then none
  else some ⟨data.u32 0, data.u16 4, data.u16 6, data.u16 10, data.u32 12⟩

variable (h : CreateContextHeader)

/-- The offset behind the name. -/
def nameEnd : ℕ := h.nameOffset.toNat + h.nameLength.toNat

/-- The offset behind the data. -/
def dataEnd : ℕ := h.dataOffset.toNat + h.dataLength.toNat

def name (b : Bytes) : Bytes :=
  b.slice h.nameOffset.toNat h.nameLength.toNat

def data (b : Bytes) : Bytes :=
  b.slice h.dataOffset.toNat h.dataLength.toNat

variable {header : CreateContextHeader} {b : Bytes}

theorem range?_name (h : header.nameEnd ≤ b.length) :
    b.range? header.nameOffset.toNat header.nameEnd = some (header.name b) := by
  unfold nameEnd at h ⊢
  rw [range?_eq_some (le_add_right _ _) h, Nat.add_sub_cancel_left, name]

theorem range?_data (h : header.dataEnd ≤ b.length) :
    b.range? header.dataOffset.toNat header.dataEnd = some (header.data b) := by
  unfold dataEnd at h ⊢
  rw [range?_eq_some (le_add_right _ _) h, Nat.add_sub_cancel_left, data]

theorem length_of_parse (h : parse b = some header) : 16 ≤ b.length := by
  by_contra hlt
  rw [parse, if_pos (by omega)] at h
  cases h

theorem parseContextChain_succ (h : parse b = some header) (fuel : ℕ) :
    parseContextChain (fuel + 1) b =
      if header.nameEnd > b.length then none
      else if header.dataEnd > b.length then none
      else (parseSingleContext (header.name b) (header.data b)).bind fun context =>
        if header.next.toNat = 0 then some [context]
        else (parseContextChain fuel (b.drop header.next.toNat)).map (context :: ·) := by
  have hlen := length_of_parse h
  have hempty : ¬ b.isEmpty = true := by
    intro hnil
    rw [isEmpty_iff.1 hnil] at hlen
    cases hlen
  rw [parse, if_neg (by omega)] at h
  cases h
  rw [parseContextChain, if_neg hempty, if_neg (by omega)]
  simp only [nameEnd, dataEnd, name, data]
  cases parseSingleContext _ _ <;> rfl

end CreateContextHeader

open CreateContextName in
/-- `parseSingleContext` with every access checked. -/
def parseSingleContext? (name data : Bytes) : Option (Option CreateContext) :=
  if name.length < 4 then some (some (.unknown name data))
  else do
    let name4 ← name.range? 0 4
    if name4 = DURABLE_HANDLE_REQUEST then some (some .durableHandleRequest)
    else if name4 = DURABLE_HANDLE_RECONNECT then
      if data.length < 16 then some none
      else do
        let persistent ← data.range? 0 8
        let volatileId ← data.range? 8 16
        some (some (.durableHandleReconnect (persistent.u64 0) (volatileId.u64 0)))
    else if name4 = DURABLE_HANDLE_REQUEST_V2 then
      if data.length < 32 then some none
      else do
        let timeout ← data.range? 0 4
        let flags ← data.range? 4 8
        let reserved ← data.range? 8 16
        let guid ← data.range? 16 32
        some (some (.durableHandleRequestV2 (timeout.u32 0) (flags.u32 0) (reserved.u64 0) guid))
    else if name4 = DURABLE_HANDLE_RECONNECT_V2 then
      if data.length < 36 then some none
      else do
        let persistent ← data.range? 0 8
        let volatileId ← data.range? 8 16
        let guid ← data.range? 16 32
        let flags ← data.range? 32 36
        some (some (.durableHandleReconnectV2 (persistent.u64 0) (volatileId.u64 0) guid
          (flags.u32 0)))
    else if name4 = LEASE_REQUEST then
      if data.length < 32 then some none
      else do
        let key ← data.range? 0 16
        let state ← data.range? 16 20
        let flags ← data.range? 20 24
        let duration ← data.range? 24 32
        if data.length ≥ 52 then do
          let parent ← data.range? 32 48
          let epoch ← data.range? 48 50
          let reserved ← data.range? 50 52
          some (some (.leaseRequestV2 key (state.u32 0) (flags.u32 0) (duration.u64 0) parent
            (epoch.u16 0) (reserved.u16 0)))
        else some (some (.leaseRequest key (state.u32 0) (flags.u32 0) (duration.u64 0)))
    else if name4 = QUERY_MAXIMAL_ACCESS then
      if data.length ≥ 8 then
        (data.range? 0 8).map fun time => some (.queryMaximalAccess (some (time.u64 0)))
      else some (some (.queryMaximalAccess none))
    else if name4 = QUERY_ON_DISK_ID then some (some .queryOnDiskId)
    else if name4 = ALLOCATION_SIZE then
      if data.length < 8 then some none
      else (data.range? 0 8).map fun size => some (.allocationSize (size.u64 0))
    else if name4 = APP_INSTANCE_ID then
      if data.length < 20 then some none
      else do
        let size ← data.range? 0 2
        let reserved ← data.range? 2 4
        let id ← data.range? 4 20
        some (some (.appInstanceId (size.u16 0) (reserved.u16 0) id))
    else some (some (.unknown name data))

theorem ite_eq_some {α : Type} {c : Prop} [Decidable c] {x x' : Option α} {y y' : α}
    (h : c → x = some y) (h' : ¬ c → x' = some y') :
    (if c then x else x') = some (if c then y else y') := by
  split
  · next hc => exact h hc
  · next hc => exact h' hc

/-- **No access fails**: each branch has checked the length of the data that it reads. -/
theorem parseSingleContext?_eq (name data : Bytes) :
    parseSingleContext? name data = some (parseSingleContext name data) := by
  unfold parseSingleContext? parseSingleContext
  refine ite_eq_some (fun _ => rfl) fun hname => ?_
  rw [range?_eq_some (zero_le 4) (by omega), bind_eq_bind, bind_some]
  refine ite_eq_some (fun _ => rfl) fun _ => ite_eq_some (fun _ => ?_) fun _ =>
    ite_eq_some (fun _ => ?_) fun _ => ite_eq_some (fun _ => ?_) fun _ =>
    ite_eq_some (fun _ => ?_) fun _ => ite_eq_some (fun _ => ?_) fun _ =>
    ite_eq_some (fun _ => rfl) fun _ => ite_eq_some (fun _ => ?_) fun _ =>
    ite_eq_some (fun _ => ?_) fun _ => rfl
  case refine_4 =>
    -- a lease request: the longer form has more fields
    refine ite_eq_some (fun _ => rfl) fun _ => ?_
    simp (disch := omega) only [range?_eq_some, bind_some, reduceSub, u64_slice, u32_slice]
    refine ite_eq_some (fun _ => ?_) fun _ => rfl
    simp (disch := omega) only [u16_slice]
  all_goals
    refine ite_eq_some (fun _ => ?_) fun _ => ?_
    all_goals simp (disch := omega) only [range?_eq_some, bind_some, map_some, reduceSub,
      u64_slice, u32_slice, u16_slice]

/-- The walk of `parseCreateContexts` from an offset on, with every access checked: the offsets
of the headers it visits, and its result. -/
def walkContexts (data : Bytes) : ℕ → ℕ → Option (List ℕ × Option (List CreateContext))
  | 0, _ => none
  | fuel + 1, offset =>
      if offset < data.length then do
        let remaining ← data.from? offset
        match CreateContextHeader.parse remaining with
        | none => some ([offset], none)
        | some header =>
            if header.nameEnd > remaining.length then some ([offset], none)
            else do
              let name ← remaining.range? header.nameOffset.toNat header.nameEnd
              if header.dataEnd > remaining.length then some ([offset], none)
              else do
                let ctxData ← remaining.range? header.dataOffset.toNat header.dataEnd
                match ← parseSingleContext? name ctxData with
                | none => some ([offset], none)
                | some context =>
                    if header.next.toNat = 0 then some ([offset], some [context])
                    else do
                      let (offsets, contexts) ←
                        walkContexts data fuel (offset + header.next.toNat)
                      some (offset :: offsets, contexts.map (context :: ·))
      else some ([], some [])

/-- The header at an offset and the name and data it addresses are in the buffer. -/
structure LiesAt (data : Bytes) (offset : ℕ) (header : CreateContextHeader) : Prop where
  parsed : CreateContextHeader.parse (data.drop offset) = some header
  name : offset + header.nameEnd ≤ data.length
  data : offset + header.dataEnd ≤ data.length

/-- An entry lies at the offset and holds the context. -/
def DecodedAt (data : Bytes) (offset : ℕ) (context : CreateContext) : Prop :=
  ∃ header, LiesAt data offset header ∧
    parseSingleContext (header.name (data.drop offset)) (header.data (data.drop offset)) =
      some context

/-- What a walk from an offset on has visited when it ends with a result. -/
structure Walked (data : Bytes) (offset : ℕ) (offsets : List ℕ)
    (result : Option (List CreateContext)) : Prop where
  forward : offsets.Pairwise (· < ·)
  within : ∀ o ∈ offsets, offset ≤ o ∧ o < data.length
  length : offsets.length ≤ data.length - offset
  decoded : ∀ contexts, result = some contexts → Forall₂ (DecodedAt data) offsets contexts

variable {data : Bytes} {offset fuel : ℕ} {header : CreateContextHeader}

theorem Walked.failed (h : offset < data.length) : Walked data offset [offset] none where
  forward := pairwise_singleton _ _
  within o ho := by
    obtain rfl := mem_singleton.1 ho
    exact ⟨le_refl _, h⟩
  length := by
    rw [length_singleton]
    omega
  decoded := nofun

theorem Walked.last : Walked data offset [] (some []) where
  forward := .nil
  within := nofun
  length := zero_le _
  decoded := by
    rintro _ ⟨⟩
    exact .nil

theorem Walked.cons {next : ℕ} {offsets : List ℕ} {result : Option (List CreateContext)}
    {context : CreateContext} (h : Walked data (offset + next) offsets result)
    (hlt : offset < data.length) (hnext : 0 < next) (hcontext : DecodedAt data offset context) :
    Walked data offset (offset :: offsets) (result.map (context :: ·)) where
  forward := by
    refine pairwise_cons.2 ⟨fun o ho => ?_, h.forward⟩
    have := (h.within o ho).1
    omega
  within o ho := by
    rcases mem_cons.1 ho with rfl | ho
    · exact ⟨le_refl _, hlt⟩
    · have := h.within o ho
      omega
  length := by
    have := h.length
    rw [length_cons]
    omega
  decoded contexts hctxs := by
    obtain ⟨rest, hrest, rfl⟩ := map_eq_some_iff.1 hctxs
    exact .cons hcontext (h.decoded rest hrest)

theorem walkContexts_walked (hfuel : data.length - offset < fuel) :
    ∃ offsets, walkContexts data fuel offset =
        some (offsets, parseContextChain fuel (data.drop offset)) ∧
      Walked data offset offsets (parseContextChain fuel (data.drop offset)) := by
  induction fuel generalizing offset with
  | zero => omega
  | succ fuel ih =>
    rw [walkContexts]
    by_cases hlt : offset < data.length
    · have hfailed := Walked.failed hlt
      rw [if_pos hlt, from?_eq_some (by omega)]
      simp only [bind_eq_bind, bind_some, parseSingleContext?_eq]
      cases hparsed : CreateContextHeader.parse (data.drop offset) with
      | none =>
        -- too short for a header
        have hempty : ¬ (data.drop offset).isEmpty = true := by simp; omega
        have hshort : (data.drop offset).length < 16 := by
          by_contra hlen
          rw [CreateContextHeader.parse, if_neg hlen] at hparsed
          cases hparsed
        rw [parseContextChain, if_neg hempty, if_pos hshort]
        exact ⟨_, rfl, hfailed⟩
      | some header =>
        rw [header.parseContextChain_succ hparsed]
        dsimp only
        by_cases hname : header.nameEnd > (data.drop offset).length
        · rw [if_pos hname, if_pos hname]
          exact ⟨_, rfl, hfailed⟩
        rw [if_neg hname, if_neg hname, header.range?_name (by omega), bind_some]
        by_cases hdata : header.dataEnd > (data.drop offset).length
        · rw [if_pos hdata, if_pos hdata]
          exact ⟨_, rfl, hfailed⟩
        rw [if_neg hdata, if_neg hdata, header.range?_data (by omega), bind_some]
        have hlies : LiesAt data offset header := by
          rw [length_drop] at hname hdata
          exact ⟨hparsed, by omega, by omega⟩
        cases hcontext : parseSingleContext (header.name (data.drop offset))
            (header.data (data.drop offset)) with
        | none => exact ⟨_, rfl, hfailed⟩
        | some context =>
          have hdecoded : DecodedAt data offset context := ⟨header, hlies, hcontext⟩
          dsimp only
          rw [bind_some]
          -- the last entry has no link; any other leads on, and uses up fuel
          by_cases hnext : header.next.toNat = 0
          · rw [if_pos hnext, if_pos hnext]
            exact ⟨_, rfl, Walked.last.cons hlt one_pos hdecoded⟩
          · obtain ⟨offsets, hwalk, hwalked⟩ := @ih (offset + header.next.toNat) (by omega)
            rw [if_neg hnext, if_neg hnext, drop_drop, hwalk]
            exact ⟨_, rfl, hwalked.cons hlt (pos_of_ne_zero hnext) hdecoded⟩
    · have hempty : (data.drop offset).isEmpty = true := by simp; omega
      rw [if_neg hlt, parseContextChain, if_pos hempty]
      exact ⟨[], rfl, .last⟩

/-- **The walk along the contexts** of any buffer ends without an access outside it, at headers
with growing offsets; on success each context was decoded from a header, a name and data in the
buffer, and it fails if one of these leaves it. -/
theorem parseCreateContexts_inside (data : Bytes) :
    ∃ offsets, walkContexts data (data.length + 1) 0 = some (offsets, parseCreateContexts data) ∧
      offsets.Pairwise (· < ·) ∧
      (∀ contexts, parseCreateContexts data = some contexts →
        contexts.length ≤ data.length ∧ List.Forall₂ (DecodedAt data) offsets contexts) ∧
      ((∃ o ∈ offsets, ¬ ∃ header, LiesAt data o header) → parseCreateContexts data = none) := by
  obtain ⟨offsets, hwalk, hwalked⟩ := @walkContexts_walked data 0 (data.length + 1) (by omega)
  rw [drop_zero] at hwalk hwalked
  refine ⟨offsets, hwalk, hwalked.forward, fun contexts hctxs => ?_, ?_⟩
  · have hdecoded := hwalked.decoded contexts hctxs
    exact ⟨hdecoded.length_eq ▸ hwalked.length, hdecoded⟩
  · rintro ⟨o, ho, hout⟩
    refine eq_none_iff_forall_ne_some.2 fun contexts hctxs => hout ?_
    have hlies : Forall₂ (fun o _ => (∃ header, LiesAt data o header) ∧ True)
        offsets contexts :=
      (hwalked.decoded contexts hctxs).imp fun o _ ⟨header, h, _⟩ => ⟨⟨header, h⟩, trivial⟩
    exact ((forall₂_and_left _ _).1 hlies).1 o ho

/-! ### Building a chain -/

/-- To the next multiple of eight. -/
def alignUp (n : ℕ) : ℕ := (n + 7) / 8 * 8

namespace CreateContextBuilder

/-- Behind the padded name. -/
def dataOffset (name data : Bytes) : UInt16 :=
  if data.isEmpty then 0 else UInt16.ofNat (alignUp (16 + name.length))

/-- The entry with its padding. -/
def contextSize (name data : Bytes) : UInt32 :=
  if data.isEmpty then UInt32.ofNat (alignUp (16 + name.length))
  else UInt32.ofNat (alignUp ((dataOffset name data).toNat + data.length))

/-- The name and data of a context with its header, before it is padded for the next one. -/
def contextBody (next : UInt32) (name data : Bytes) : Bytes :=
  ofU32 next ++ (ofU16 16 ++ (ofU16 (UInt16.ofNat name.length) ++
    (ofU16 0 ++ (ofU16 (dataOffset name data) ++
    (ofU32 (UInt32.ofNat data.length) ++ (name ++ if data.isEmpty then [] else
      zeros ((dataOffset name data).toNat - 16 - name.length) ++ data))))))

/-- A context that is not the last. -/
def contextBytes (name data : Bytes) : Bytes :=
  let body := contextBody (contextSize name data) name data
  body ++ zeros ((contextSize name data).toNat - body.length)

/-- Entries linked in a chain. -/
def build : List (Bytes × Bytes) → Bytes
  | [] => []
  | [c] => contextBody 0 c.1 c.2
  | c :: c' :: cs => contextBytes c.1 c.2 ++ build (c' :: cs)

/-- The header at an offset addresses a name and data in the `extent` bytes of its context. -/
structure HoldsAt (buffer : Bytes) (offset extent : ℕ) (header : CreateContextHeader)
    (c : Bytes × Bytes) : Prop where
  parsed : CreateContextHeader.parse (buffer.drop offset) = some header
  aligned : offset % 8 = 0
  nameInside : header.nameEnd ≤ extent
  name : header.name (buffer.drop offset) = c.1
  dataInside : header.dataEnd ≤ extent
  data : header.data (buffer.drop offset) = c.2

/-- Following `next` from an offset visits these contexts; the last one takes the rest. -/
def Finds (buffer : Bytes) : ℕ → List (Bytes × Bytes) → Prop
  | _, [] => False
  | offset, [c] => ∃ header, HoldsAt buffer offset (buffer.length - offset) header c ∧
      header.next = 0
  | offset, c :: c' :: cs => ∃ header, HoldsAt buffer offset header.next.toNat header c ∧
      header.next ≠ 0 ∧ Finds buffer (offset + header.next.toNat) (c' :: cs)

variable {name data : Bytes}

theorem dataOffset_toNat (hname : name.length ≤ 2 ^ 15) (hdata : data ≠ []) :
    (dataOffset name data).toNat = alignUp (16 + name.length) := by
  rw [dataOffset, if_neg (by simpa using hdata), UInt16.toNat_ofNat_of_lt']
  simp only [alignUp, UInt16.size]
  omega

theorem alignUp_spec (n : ℕ) : n ≤ alignUp n ∧ alignUp n ≤ n + 7 ∧ alignUp n % 8 = 0 := by
  unfold alignUp
  omega

variable (next : UInt32)

/-- The data of a context comes last, behind as many bytes as its offset says. -/
theorem contextBody_eq (hname : name.length ≤ 2 ^ 15) (hdata : data ≠ []) :
    ∃ front : Bytes, front.length = alignUp (16 + name.length) ∧
      contextBody next name data = front ++ data := by
  have halign := alignUp_spec (16 + name.length)
  refine ⟨_, ?_, by
    simp only [contextBody, List.isEmpty_iff, if_neg hdata, ← append_assoc]; rfl⟩
  simp only [length_append, length_ofU32, length_ofU16, length_zeros, dataOffset_toNat hname hdata]
  omega

theorem length_contextBody (hname : name.length ≤ 2 ^ 15) :
    (contextBody next name data).length =
      if data = [] then 16 + name.length else alignUp (16 + name.length) + data.length := by
  split
  case isTrue hnil =>
    subst hnil
    simp [contextBody]
    omega
  case isFalse hdata =>
    obtain ⟨front, hfront, hbody⟩ := contextBody_eq next hname hdata
    rw [hbody, length_append, hfront]

theorem holdsAt_contextBody (hname : name.length ≤ 2 ^ 15) (hdata : data.length < 2 ^ 31)
    {before : Bytes} (hprev : before.length % 8 = 0) (after : Bytes) {extent : ℕ}
    (hextent : (contextBody next name data).length ≤ extent) :
    ∃ header, header.next = next ∧ HoldsAt (before ++ (contextBody next name data ++ after))
      before.length extent header (name, data) := by
  have hnameLen : (UInt16.ofNat name.length).toNat = name.length :=
    UInt16.toNat_ofNat_of_lt' (by simp only [UInt16.size]; omega)
  have hdataLen : (UInt32.ofNat data.length).toNat = data.length :=
    UInt32.toNat_ofNat_of_lt' (by simp only [UInt32.size]; omega)
  refine ⟨⟨next, 16, UInt16.ofNat name.length, dataOffset name data, UInt32.ofNat data.length⟩, rfl,
    ?_, hprev, le_trans ?_ hextent, ?_, le_trans ?_ hextent, ?_⟩
  · rw [drop_left, CreateContextHeader.parse, if_neg (by simp [contextBody]; omega)]
    simp [contextBody, u32_append_of_le, u32_ofU32_append, u16_append_of_le, u16_ofU16_append]
  · simp only [CreateContextHeader.nameEnd, hnameLen]
    simp [contextBody]
    omega
  · simp only [CreateContextHeader.name, drop_left, hnameLen]
    simp [contextBody, slice, drop_append, drop_of_length_le]
  · simp only [CreateContextHeader.dataEnd, hdataLen, length_contextBody next hname]
    split
    case isTrue hnil => simp [dataOffset, hnil]
    case isFalse hsome => rw [dataOffset_toNat hname hsome]
  · simp only [CreateContextHeader.data, drop_left, hdataLen]
    by_cases hnil : data = []
    · simp [hnil, slice]
    · obtain ⟨front, hfront, hbody⟩ := contextBody_eq next hname hnil
      rw [hbody, dataOffset_toNat hname hnil, ← hfront, slice, append_assoc, drop_left, take_left]

theorem contextSize_toNat (hname : name.length ≤ 2 ^ 15) (hdata : data.length < 2 ^ 31) :
    (contextSize name data).toNat = alignUp (contextBody next name data).length := by
  have halign := alignUp_spec (16 + name.length)
  have halign' := alignUp_spec (alignUp (16 + name.length) + data.length)
  rw [length_contextBody next hname, contextSize]
  simp only [List.isEmpty_iff]
  split
  case isTrue hnil => exact UInt32.toNat_ofNat_of_lt' (by simp only [UInt32.size]; omega)
  case isFalse hsome =>
    rw [dataOffset_toNat hname hsome]
    exact UInt32.toNat_ofNat_of_lt' (by simp only [UInt32.size]; omega)

/-- The contexts of a list are found behind what was written before, by induction on the list. -/
theorem finds_append {contexts : List (Bytes × Bytes)} (hsome : contexts ≠ [])
    (hnames : ∀ c ∈ contexts, c.1.length ≤ 2 ^ 15) (hdata : ∀ c ∈ contexts, c.2.length < 2 ^ 31)
    {before : Bytes} (hprev : before.length % 8 = 0) :
    Finds (before ++ build contexts) before.length contexts := by
  induction contexts generalizing before with
  | nil => exact absurd rfl hsome
  | cons c rest ih =>
    have hname := hnames c mem_cons_self
    have hlt := hdata c mem_cons_self
    cases rest with
    | nil =>
      obtain ⟨header, hnext, hholds⟩ := holdsAt_contextBody 0 hname hlt hprev [] (le_refl _)
      rw [append_nil] at hholds
      refine ⟨header, ?_, hnext⟩
      rwa [build, length_append, Nat.add_sub_cancel_left]
    | cons c' cs =>
      have hsize := contextSize_toNat (contextSize c.1 c.2) hname hlt
      have halign := alignUp_spec (contextBody (contextSize c.1 c.2) c.1 c.2).length
      have hpos : 16 ≤ (contextBody (contextSize c.1 c.2) c.1 c.2).length := by
        simp [contextBody]
        omega
      have hlength : (contextBytes c.1 c.2).length = (contextSize c.1 c.2).toNat := by
        simp only [contextBytes, length_append, length_zeros]
        omega
      obtain ⟨header, hnext, hholds⟩ := holdsAt_contextBody (contextSize c.1 c.2) hname hlt hprev
        (zeros ((contextSize c.1 c.2).toNat - (contextBody (contextSize c.1 c.2) c.1 c.2).length) ++
          build (c' :: cs)) (show _ ≤ (contextSize c.1 c.2).toNat by omega)
      have hprev' : (before ++ contextBytes c.1 c.2).length % 8 = 0 := by
        rw [length_append]
        omega
      have hrest := ih (cons_ne_nil _ _) (fun d hd => hnames d (mem_cons_of_mem c hd))
        (fun d hd => hdata d (mem_cons_of_mem c hd)) hprev'
      refine ⟨header, ?_, ?_, ?_⟩
      · rw [hnext, build, contextBytes, append_assoc]
        exact hholds
      · rw [hnext]
        intro hzero
        have hnone : (contextSize c.1 c.2).toNat = 0 := congrArg UInt32.toNat hzero
        omega
      · rw [hnext, ← hlength, ← length_append]
        rwa [append_assoc] at hrest

/-- **Contexts are found as they were built**: following `next` visits one aligned header for
each context, in order, with its name and data inside. -/
theorem build_finds (contexts : List (Bytes × Bytes)) (hsome : contexts ≠ [])
    (hnames : ∀ c ∈ contexts, 4 ≤ c.1.length ∧ c.1.length ≤ 2 ^ 15)
    (hdata : (contexts.map fun c => c.2.length).sum < 2 ^ 31) :
    Finds (build contexts) 0 contexts := by
  refine @finds_append contexts hsome (fun c hc => (hnames c hc).2) (fun c hc => ?_) [] rfl
  have hle : c.2.length ≤ (contexts.map fun c => c.2.length).sum :=
    single_le_sum (fun _ _ => zero_le _) _ (mem_map_of_mem hc)
  omega

/-- A context without data and one with three bytes. -/
theorem build_finds_two :
    Finds (build [([68, 72, 110, 81], []), ([82, 113, 76, 115], [1, 2, 3])]) 0
      [([68, 72, 110, 81], []), ([82, 113, 76, 115], [1, 2, 3])] :=
  build_finds _ (by simp) (by decide) (by decide)

end CreateContextBuilder

namespace ResponseContext

variable (c : ResponseContext)

theorem length_name : c.name.length = 4 := by
  cases c <;> rfl

theorem dataOffset_eq : c.data.isEmpty = false ∧
    CreateContextBuilder.dataOffset c.name c.data = 24 := by
  have hdata : c.data.isEmpty = false := by cases c <;> simp [data, ofU64, ofU32, ofLeNat, zeros]
  exact ⟨hdata, by simp [CreateContextBuilder.dataOffset, hdata, length_name, alignUp]⟩

theorem build_eq {cs : List ResponseContext} (h : ∀ c ∈ cs, c.data.length < 2 ^ 31) :
    build cs = CreateContextBuilder.build (cs.map fun c => (c.name, c.data)) := by
  induction cs with
  | nil => rfl
  | cons c cs ih =>
    obtain ⟨hdata, hoff⟩ := c.dataOffset_eq
    cases cs with
    | nil =>
      simp [build, bytes, CreateContextBuilder.build, CreateContextBuilder.contextBody, hdata,
        hoff, length_name]
    | cons c' cs =>
      have hlt := h c mem_cons_self
      have hsize : (24 + c.data.length + 7) / 8 * 8 % 4294967296 =
          (24 + c.data.length + 7) / 8 * 8 := mod_eq_of_lt (by omega)
      rw [build, ih fun d hd => h d (mem_cons_of_mem c hd)]
      simp [bytes, CreateContextBuilder.build, CreateContextBuilder.contextBytes, alignUp,
        CreateContextBuilder.contextBody, CreateContextBuilder.contextSize, hdata, hoff,
        length_name, hsize]

end ResponseContext

end RustSmb
