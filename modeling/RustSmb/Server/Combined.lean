import RustSmb.Server.Message
import RustSmb.Session.Framing

/-!
# Combined responses

The responses of a compound are put one after the other.  Each gets the distance to the
next, the flag of related operations if the compound is related, and a new signature if
it is signed; all but the last are padded to a multiple of eight.  Walking over the
result as over a request finds the responses again.

## Main results

* `framed_placeResponse` — placing a response changes nothing else.
* `combined_walk` — **a walk over combined responses finds each of them.**
-/

namespace RustSmb

open List Bytes

section Responses

theorem splice_signature {response d : Bytes} (hlen : 64 ≤ response.length)
    (hd : d.length = 16) : (response.splice 48 d).length = response.length ∧
      ∀ i, i < 48 ∨ 64 ≤ i → (response.splice 48 d).getD i 0 = response.getD i 0 := by
  refine ⟨length_splice (by omega), fun i hi => ?_⟩
  exact getD_splice_of_outside (by omega) (by omega)

variable [Externs]

/-! ### Signing again -/

theorem reSignResponse_keeps (signingKeys : Table UInt64 Bytes) {response : Bytes}
    (hlen : 64 ≤ response.length) :
    (reSignResponse signingKeys response).length = response.length ∧
      ∀ i, i < 48 ∨ 64 ≤ i →
        (reSignResponse signingKeys response).getD i 0 = response.getD i 0 := by
  have hself : response.length = response.length ∧
      ∀ i, i < 48 ∨ 64 ≤ i → response.getD i 0 = response.getD i 0 := ⟨rfl, fun _ _ => rfl⟩
  unfold reSignResponse
  split
  · exact hself
  split
  · exact hself
  split
  · obtain ⟨hzero, hzeroAt⟩ := splice_signature hlen (length_zeros 16)
    have hlen' : 64 ≤ (zeroSignature response).length := by
      rw [zeroSignature, hzero]
      exact hlen
    obtain ⟨hsign, hsignAt⟩ := splice_signature hlen' (length_computeSignature _ _)
    exact ⟨hsign.trans hzero, fun i hi => (hsignAt i hi).trans (hzeroAt i hi)⟩
  · exact hself

/-- A first signature keeps the length and every byte but the flags and the signature. -/
theorem maybeSignResponse_keeps (signingKeys : Table UInt64 Bytes) (response : Bytes) :
    (maybeSignResponse signingKeys response).length = response.length ∧
      ∀ i, i < 16 ∨ (20 ≤ i ∧ i < 48) ∨ 64 ≤ i →
        (maybeSignResponse signingKeys response).getD i 0 = response.getD i 0 := by
  have hself : response.length = response.length ∧
      ∀ i, i < 16 ∨ (20 ≤ i ∧ i < 48) ∨ 64 ≤ i → response.getD i 0 = response.getD i 0 :=
    ⟨rfl, fun _ _ => rfl⟩
  unfold maybeSignResponse
  split
  · exact hself
  split
  · exact hself
  dsimp only
  split
  · exact hself
  · next hlen _ _ _ _ =>
    have hlen' : 64 ≤ response.length := Nat.le_of_not_lt hlen
    have hfits : 16 + (ofU32 (response.u32 16 ||| Smb2Flags.SIGNED)).length ≤ response.length := by
      rw [length_ofU32]
      omega
    have hflag := length_splice hfits
    obtain ⟨hzero, hzeroAt⟩ := splice_signature (hflag ▸ hlen') (length_zeros 16)
    have hlen'' : 64 ≤ (zeroSignature (response.splice 16
        (ofU32 (response.u32 16 ||| Smb2Flags.SIGNED)))).length := by
      rw [zeroSignature, hzero, hflag]
      exact hlen'
    obtain ⟨hsign, hsignAt⟩ := splice_signature hlen'' (length_computeSignature _ _)
    refine ⟨hsign.trans (hzero.trans hflag), fun i hi => ?_⟩
    rw [hsignAt i (by omega), zeroSignature, hzeroAt i (by omega),
      getD_splice_of_outside hfits (by rw [length_ofU32]; omega)]

/-! ### Placing a response -/

/-- A response with the flag of related operations, if the compound is related. -/
def markRelated (isRelated : Bool) (response : Bytes) : Bytes :=
  if isRelated then
    response.splice 16 (Bytes.ofU32 (response.u32 16 ||| Smb2Flags.RELATED_OPERATIONS))
  else response

/-- A response with its flag and the distance to the next. -/
def withNext (isRelated : Bool) (next : UInt32) (response : Bytes) : Bytes :=
  (markRelated isRelated response).splice 20 (Bytes.ofU32 next)

def paddingOf (isLast : Bool) (response : Bytes) : ℕ :=
  if isLast then 0 else compoundPadding response.length

def nextOf (isLast : Bool) (response : Bytes) : UInt32 :=
  if isLast then 0 else UInt32.ofNat (response.length + paddingOf isLast response)

/-- A response is placed with its flag, distance, signature and padding, and no other change. -/
structure Framed (isRelated : Bool) (response placed : Bytes) : Prop where
  /-- Zeros follow the response. -/
  padded : ∃ n < 8, placed.length = response.length + n ∧
    placed.drop response.length = Bytes.zeros n
  /-- Of the flags only that of related operations changes. -/
  flags : placed.u32 16 =
    response.u32 16 ||| (if isRelated then Smb2Flags.RELATED_OPERATIONS else 0)
  /-- The other bytes stay. -/
  bytes : ∀ i < response.length, i < 16 ∨ (24 ≤ i ∧ i < 48) ∨ 64 ≤ i →
    placed.getD i 0 = response.getD i 0

section Place

variable {response : Bytes}

omit [Externs] in
theorem markRelated_keeps (isRelated : Bool) (hlen : 64 ≤ response.length) :
    (markRelated isRelated response).length = response.length ∧
      ∀ i, i < 16 ∨ 20 ≤ i → (markRelated isRelated response).getD i 0 = response.getD i 0 := by
  unfold markRelated
  split
  · refine ⟨length_splice (by rw [length_ofU32]; omega), fun i hi => ?_⟩
    exact getD_splice_of_outside (by rw [length_ofU32]; omega) (by rw [length_ofU32]; omega)
  · exact ⟨rfl, fun _ _ => rfl⟩

omit [Externs] in
theorem u32_markRelated (isRelated : Bool) (hlen : 64 ≤ response.length) :
    (markRelated isRelated response).u32 16 =
      response.u32 16 ||| (if isRelated then Smb2Flags.RELATED_OPERATIONS else 0) := by
  unfold markRelated
  split
  · exact u32_splice_self (by omega) _
  · simp

omit [Externs] in
theorem withNext_keeps (isRelated : Bool) (next : UInt32) (hlen : 64 ≤ response.length) :
    (withNext isRelated next response).length = response.length ∧
      (withNext isRelated next response).u32 20 = next ∧
      (withNext isRelated next response).u32 16 =
        response.u32 16 ||| (if isRelated then Smb2Flags.RELATED_OPERATIONS else 0) ∧
      ∀ i, i < 16 ∨ 24 ≤ i → (withNext isRelated next response).getD i 0 = response.getD i 0 := by
  obtain ⟨hmark, hmarkAt⟩ := markRelated_keeps isRelated hlen
  have hfits : 20 + (ofU32 next).length ≤ (markRelated isRelated response).length := by
    rw [length_ofU32]
    omega
  refine ⟨(length_splice hfits).trans hmark, u32_splice_self (by omega) next, ?_, fun i hi => ?_⟩
  · rw [withNext, u32_splice_of_outside hfits (by omega), u32_markRelated isRelated hlen]
  · rw [withNext, getD_splice_of_outside hfits (by rw [length_ofU32]; omega), hmarkAt i (by omega)]

section Placing

variable (signingKeys : Table UInt64 Bytes) (isRelated isLast : Bool) (hlen : 64 ≤ response.length)

include signingKeys isRelated isLast hlen

/-- A placed response is, up to the signature, the one with its flag and distance, followed by
its padding. -/
theorem placeResponse_eq :
    ∃ placed, placeResponse signingKeys isRelated isLast response =
        placed ++ zeros (paddingOf isLast response) ∧
      placed.length = response.length ∧
      ∀ i, i < 48 ∨ 64 ≤ i → placed.getD i 0 =
        (withNext isRelated (nextOf isLast response) response).getD i 0 := by
  obtain ⟨hnext, -⟩ := withNext_keeps isRelated (nextOf isLast response) hlen
  obtain ⟨hsign, hsignAt⟩ := reSignResponse_keeps signingKeys (hnext ▸ hlen)
  have hsize : ¬ response.length < SMB2_HEADER_SIZE := by
    unfold SMB2_HEADER_SIZE
    omega
  unfold placeResponse
  rw [if_neg hsize]
  refine ⟨_, rfl, ?_, ?_⟩
  · split
    · exact hsign.trans hnext
    · exact hnext
  · intro i hi
    split
    · exact hsignAt i hi
    · rfl

/-- **Placing a response changes nothing but its frame.** -/
theorem framed_placeResponse :
    Framed isRelated response (placeResponse signingKeys isRelated isLast response) := by
  obtain ⟨placed, heq, hplaced, hplacedAt⟩ := placeResponse_eq signingKeys isRelated isLast hlen
  obtain ⟨-, -, hflags, hnextAt⟩ := withNext_keeps isRelated (nextOf isLast response) hlen
  have hfront : ∀ i < response.length, (placed ++ zeros (paddingOf isLast response)).getD i 0
      = placed.getD i 0 := fun i hi => getD_append _ _ _ _ (by omega)
  have hpad : paddingOf isLast response < 8 := by
    unfold paddingOf compoundPadding
    split <;> omega
  rw [heq]
  refine ⟨⟨_, hpad, ?_, ?_⟩, ?_, fun i hi hfree => ?_⟩
  · rw [length_append, hplaced, length_zeros]
  · rw [← hplaced, drop_left]
  · rw [← hflags, u32_append_left _ (by omega), u32, u32,
      leNat_congr fun i hi => hplacedAt (16 + i) (by omega)]
  · rw [hfront i hi, hplacedAt i (by omega), hnextAt i (by omega)]

theorem u32_placeResponse :
    (placeResponse signingKeys isRelated isLast response).u32 20 = nextOf isLast response := by
  obtain ⟨placed, heq, hplaced, hplacedAt⟩ := placeResponse_eq signingKeys isRelated isLast hlen
  obtain ⟨-, hnext, -⟩ := withNext_keeps isRelated (nextOf isLast response) hlen
  rw [heq, u32_append_left _ (by omega), ← hnext, u32, u32,
    leNat_congr fun i hi => hplacedAt (20 + i) (by omega)]

theorem length_placeResponse :
    (placeResponse signingKeys isRelated isLast response).length =
      response.length + paddingOf isLast response := by
  obtain ⟨placed, heq, hplaced, -⟩ := placeResponse_eq signingKeys isRelated isLast hlen
  rw [heq, length_append, hplaced, length_zeros]

end Placing

end Place

/-! ### Combining -/

/-- The responses of a compound, each in its place. -/
def placeResponses (signingKeys : Table UInt64 Bytes) (isRelated : Bool) :
    List Bytes → List Bytes
  | [] => []
  | [response] => [placeResponse signingKeys isRelated true response]
  | response :: next :: rest =>
      placeResponse signingKeys isRelated false response ::
        placeResponses signingKeys isRelated (next :: rest)

section Combine

variable {signingKeys : Table UInt64 Bytes} {isRelated : Bool}

theorem joinResponses_eq_flatten (responses : List Bytes) :
    joinResponses signingKeys isRelated responses =
      (placeResponses signingKeys isRelated responses).flatten := by
  fun_induction placeResponses signingKeys isRelated responses with
  | case1 => rfl
  | case2 response => simp [joinResponses]
  | case3 response next rest ih => rw [joinResponses, ih, flatten_cons]

variable {responses : List Bytes}

theorem framed_placeResponses (hlen : ∀ r ∈ responses, 64 ≤ r.length) :
    List.Forall₂ (Framed isRelated) responses (placeResponses signingKeys isRelated responses) := by
  fun_induction placeResponses signingKeys isRelated responses with
  | case1 => exact .nil
  | case2 response => exact .cons (framed_placeResponse _ _ _ (hlen _ mem_cons_self)) .nil
  | case3 response next rest ih =>
    refine .cons (framed_placeResponse _ _ _ (hlen _ mem_cons_self)) (ih fun r hr => ?_)
    exact hlen r (mem_cons_of_mem _ hr)

omit [Externs] in
theorem toNat_nextOf {response : Bytes} (h : response.length + 7 < 2 ^ 32) :
    (nextOf false response).toNat = response.length + paddingOf false response := by
  have hpad : paddingOf false response < 8 := by
    show compoundPadding response.length < 8
    unfold compoundPadding
    omega
  exact UInt32.toNat_ofNat_of_lt' (by show _ < 2 ^ 32; omega)

theorem chained_placeResponses (hne : responses ≠ []) (hlen : ∀ r ∈ responses, 64 ≤ r.length)
    (htotal : (responses.map List.length).sum < 2 ^ 32) :
    Chained (placeResponses signingKeys isRelated responses) := by
  fun_induction placeResponses signingKeys isRelated responses with
  | case1 => exact absurd rfl hne
  | case2 response =>
    have h := hlen response mem_cons_self
    refine ⟨?_, u32_placeResponse _ _ _ h⟩
    rw [length_placeResponse _ _ _ h]
    omega
  | case3 response next rest ih =>
    have h := hlen response mem_cons_self
    have hnext := hlen next (mem_cons_of_mem _ mem_cons_self)
    -- the next response leaves room for the padding
    simp only [map_cons, sum_cons] at htotal
    have hrest : Chained (placeResponses signingKeys isRelated (next :: rest)) := by
      refine ih (by simp) (fun r hr => hlen r (mem_cons_of_mem _ hr)) ?_
      simp only [map_cons, sum_cons]
      omega
    refine hrest.cons ?_ ?_
    · rw [length_placeResponse _ _ _ h]
      omega
    · rw [u32_placeResponse _ _ _ h, toNat_nextOf (by omega), length_placeResponse _ _ _ h]

theorem dvd_of_mem_startsFrom (hlen : ∀ r ∈ responses, 64 ≤ r.length) {start : ℕ}
    (hstart : 8 ∣ start) :
    ∀ o ∈ startsFrom start (placeResponses signingKeys isRelated responses), 8 ∣ o := by
  fun_induction placeResponses signingKeys isRelated responses generalizing start with
  | case1 => exact nofun
  | case2 response =>
    intro o ho
    rwa [mem_singleton.1 ho]
  | case3 response next rest ih =>
    have hplaced : 8 ∣ (placeResponse signingKeys isRelated false response).length := by
      rw [length_placeResponse _ _ _ (hlen _ mem_cons_self)]
      show 8 ∣ response.length + compoundPadding response.length
      unfold compoundPadding
      omega
    intro o ho
    rcases mem_cons.1 ho with rfl | ho
    · exact hstart
    · exact ih (fun r hr => hlen r (mem_cons_of_mem _ hr)) (Nat.dvd_add hstart hplaced) o ho

/-- **A walk over combined responses finds each of them**, at a multiple of eight and changed
only in its frame. -/
theorem combined_walk (signingKeys : Table UInt64 Bytes) (isRelated : Bool)
    {responses : List Bytes} (hmany : 2 ≤ responses.length)
    (hlen : ∀ r ∈ responses, 64 ≤ r.length)
    (htotal : (responses.map List.length).sum < 2 ^ 32) :
    ∃ out, combineCompoundResponses signingKeys isRelated responses = .ok out ∧
      (parseCompoundOffsets out).length = responses.length ∧
      (∀ o ∈ parseCompoundOffsets out, 8 ∣ o) ∧
      (∀ last, (compoundCommands out (parseCompoundOffsets out)).getLast? = some last →
        last.u32 20 = 0) ∧
      List.Forall₂ (Framed isRelated) responses
        (compoundCommands out (parseCompoundOffsets out)) := by
  have hne : responses ≠ [] := by
    rintro rfl
    exact absurd hmany (by decide)
  have hchain : Chained (placeResponses signingKeys isRelated responses) :=
    chained_placeResponses hne hlen htotal
  have hframed : List.Forall₂ (Framed isRelated) responses
      (placeResponses signingKeys isRelated responses) := framed_placeResponses hlen
  refine ⟨(placeResponses signingKeys isRelated responses).flatten, ?_, ?_, ?_, ?_, ?_⟩
  · match responses, hmany with
    | response :: next :: rest, _ => rw [combineCompoundResponses, joinResponses_eq_flatten]
  · rw [parseCompoundOffsets_chained hchain, length_startsFrom, hframed.length_eq]
  · rw [parseCompoundOffsets_chained hchain]
    exact dvd_of_mem_startsFrom hlen (Nat.dvd_zero 8)
  · rw [compoundCommands_chained hchain]
    exact fun last => hchain.last
  · rw [compoundCommands_chained hchain]
    exact hframed

end Combine

end Responses

namespace Sample

/-- Two responses of a related compound, of 64 and of 70 bytes. -/
theorem combined_walk_two :
    (2 ≤ [Bytes.zeros 64, Bytes.zeros 70].length ∧
      (∀ r ∈ [Bytes.zeros 64, Bytes.zeros 70], 64 ≤ r.length) ∧
      ([Bytes.zeros 64, Bytes.zeros 70].map List.length).sum < 2 ^ 32) ∧
    ∃ out, combineCompoundResponses ∅ true [Bytes.zeros 64, Bytes.zeros 70] = .ok out ∧
      (parseCompoundOffsets out).length = 2 ∧ (∀ o ∈ parseCompoundOffsets out, 8 ∣ o) ∧
      (∀ last, (compoundCommands out (parseCompoundOffsets out)).getLast? = some last →
        last.u32 20 = 0) ∧
      List.Forall₂ (Framed true) [Bytes.zeros 64, Bytes.zeros 70]
        (compoundCommands out (parseCompoundOffsets out)) :=
  ⟨by decide, combined_walk ∅ true (by decide) (by decide) (by decide)⟩

end Sample

end RustSmb
