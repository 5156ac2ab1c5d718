import RustSmb.Coordinator.State
import RustSmb.State.LeaseTable

/-!
# Proposals of the Raft coordinator

The Raft coordinator hands requests to the Raft library and applies the entries that it has
committed.  The channel on which a proposer waits is filed under the number of the proposal and
looked up under the index of the entry: a proposer gets its own answer exactly when the two are the
same and it has not given up by then.

What the library does is an input: how many empty entries it appends, which proposals it refuses,
and how many committed entries it hands over, in the ready state or in the light ready state, which
is dropped.  So is the moment at which a proposer has waited for five seconds.

## Main results

* `answeredOwn_iff` — **proposers get their own answers iff the numbers agree in time.**
* `Sample.first_proposal_unanswered` — the entry of the election puts them out of step.
* `run_replays` — the state is what the entries make of it in the order of the log.
* `CoordinationState.checkLeaseConflict_agrees` — leases are decided as in the in-memory store.

Source: `rustsmb-coord-raft/src/lib.rs`, `rustsmb-coord-raft/src/state.rs`.
-/

namespace RustSmb.Raft

open Table Nat List

/-! ### The state machine -/

/-- The commands of the log. -/
inductive CoordRequest where
  | registerServer (registration : ServerRegistration)
  | unregisterServer (serverId : String)
  | updateHeartbeat (serverId : String) (timestamp : UInt64)
  | incrementEpoch
  | createLease (lease : LeaseEntry)
  | updateLease (lease : LeaseEntry)
  | deleteLease (leaseKey : String)
  | getLeasesForFile (filePath : String)
  | checkLeaseConflict (filePath : String) (requestorLeaseKey : Option String)
      (requestedState : UInt32)
  | releaseLeasesForServer (serverId : String)
  | acquireLock (lock : DistributedLock)
  | releaseLock (lockId : UInt64)
  | releaseLocksForSession (sessionId : UInt64)
  | releaseLocksForHandle (handleId : HandleId)
  | releaseLocksForServer (serverId : String)
  deriving DecidableEq

/-- What applying one answers. -/
inductive CoordResponse where
  | ok
  | epoch (epoch : UInt64)
  | leases (leases : List LeaseEntry)
  | leaseConflict (result : LeaseConflictResult)
  | lockGranted (granted : Bool)
  | error (message : String)
  deriving DecidableEq

/-- The replicated state. -/
structure CoordinationState where
  cacheEpoch : UInt64
  servers : Table String ServerRegistration
  leases : Table String LeaseEntry
  locks : Table String (List DistributedLock)
  nextLockId : UInt64

namespace CoordinationState

def new : CoordinationState := ⟨1, ∅, ∅, ∅, 1⟩

def getLeasesForFile (state : CoordinationState) (filePath : String) : List LeaseEntry :=
  state.leases.values.filter fun l => l.filePath == filePath

/-- Do two lease states exclude each other?  This is the state machine's copy of the store's
rule. -/
def leasesConflict (existingState requestedState : UInt32) : Bool :=
  let existingHasWrite := existingState &&& LeaseEntry.WRITE_CACHING != 0
  let requestedHasWrite := requestedState &&& LeaseEntry.WRITE_CACHING != 0
  if existingHasWrite && requestedState != 0 then true
  else if requestedHasWrite && existingState != 0 then true
  else false

/-- What is left of a requested lease state, again a copy. -/
def reduceLeaseState (requestedState : UInt32) (conflicts : List LeaseEntry) : UInt32 :=
  let anyWrite := conflicts.any fun l => l.leaseState &&& LeaseEntry.WRITE_CACHING != 0
  if anyWrite then 0
  else if requestedState &&& LeaseEntry.WRITE_CACHING != 0 then
    requestedState &&& ~~~LeaseEntry.WRITE_CACHING
  else requestedState

/-- What a request for a lease would come to. -/
def checkLeaseConflict (state : CoordinationState) (filePath : String)
    (requestorLeaseKey : Option String) (requestedState : UInt32) : LeaseConflictResult :=
  let existing := state.leases.values.filter fun l =>
    l.filePath == filePath && requestorLeaseKey.all fun k => l.leaseKey != k
  if existing.isEmpty then .granted requestedState
  else
    let conflicts := existing.filter fun l => leasesConflict l.leaseState requestedState
    if conflicts.isEmpty then .granted requestedState
    else .conflict conflicts (reduceLeaseState requestedState conflicts)

/-- Lists are thinned out, but their keys stay. -/
def retainLocks (state : CoordinationState) (keep : DistributedLock → Bool) : CoordinationState :=
  { state with locks := ⟨state.locks.entries.map fun e => ⟨e.1, e.2.filter keep⟩, by
      unfold NodupKeys keys
      rw [map_map]
      exact state.locks.nodupKeys⟩ }

/-- One command on the state. -/
def apply (state : CoordinationState) : CoordRequest → CoordResponse × CoordinationState
  | .registerServer reg => (.ok, { state with servers := state.servers.insert reg.serverId reg })
  | .unregisterServer serverId =>
      (.epoch (state.cacheEpoch + 1),
        { state with servers := state.servers.erase serverId, cacheEpoch := state.cacheEpoch + 1 })
  | .updateHeartbeat serverId timestamp =>
      match state.servers.lookup serverId with
      | some server =>
          let server := { server with lastHeartbeat := timestamp }
          (.ok, { state with servers := state.servers.insert serverId server })
      | none => (.ok, state)
  | .incrementEpoch =>
      (.epoch (state.cacheEpoch + 1), { state with cacheEpoch := state.cacheEpoch + 1 })
  | .createLease lease =>
      if (state.leases.lookup lease.leaseKey).isSome then (.error "Lease already exists", state)
      else (.ok, { state with leases := state.leases.insert lease.leaseKey lease })
  | .updateLease lease => (.ok, { state with leases := state.leases.insert lease.leaseKey lease })
  | .deleteLease leaseKey => (.ok, { state with leases := state.leases.erase leaseKey })
  | .getLeasesForFile filePath => (.leases (state.getLeasesForFile filePath), state)
  | .checkLeaseConflict filePath requestorLeaseKey requestedState =>
      (.leaseConflict (state.checkLeaseConflict filePath requestorLeaseKey requestedState), state)
  | .releaseLeasesForServer serverId =>
      (.ok, { state with leases := state.leases.retain fun _ l => l.serverId != serverId })
  | .acquireLock lock =>
      -- a lock gets a number even if it is refused, and the file gets an entry
      let lock := { lock with lockId := state.nextLockId }
      let existing := (state.locks.lookup lock.filePath).getD []
      let granted := !existing.any fun l => lock.conflictsWith l
      (.lockGranted granted,
        { state with
          nextLockId := state.nextLockId + 1
          locks := state.locks.insert lock.filePath
            (if granted then existing ++ [lock] else existing) })
  | .releaseLock lockId => (.ok, state.retainLocks fun l => l.lockId != lockId)
  | .releaseLocksForSession sessionId => (.ok, state.retainLocks fun l => l.sessionId != sessionId)
  | .releaseLocksForHandle handleId => (.ok, state.retainLocks fun l => l.handleId != handleId)
  | .releaseLocksForServer serverId => (.ok, state.retainLocks fun l => l.serverId != serverId)

/-! ### The lease rule of the state machine and that of the store -/

section Agreement

variable {leases leases' : Table String LeaseEntry} {state : CoordinationState} {filePath : String}
  {lease : LeaseEntry} {r : UInt32}

theorem checkLeaseConflict_eq :
    state.checkLeaseConflict filePath (some lease.leaseKey) r =
      { canGrant := (conflictingLeases state.leases filePath lease r).isEmpty
        conflicts := conflictingLeases state.leases filePath lease r
        grantedState := grantedState state.leases filePath lease r } := by
  have hoths : (state.leases.values.filter fun l => l.filePath == filePath &&
      (some lease.leaseKey).all fun k => l.leaseKey != k) =
        otherLeases state.leases filePath lease.leaseKey := rfl
  have hrule : leasesConflict = RustSmb.leasesConflict := rfl
  have hreduce : reduceLeaseState = RustSmb.reduceLeaseState := rfl
  unfold checkLeaseConflict grantedState conflictingLeases
  rw [hoths, hrule, hreduce]
  dsimp only
  split
  · next hnone =>
    rw [isEmpty_iff.1 hnone]
    rfl
  · generalize (otherLeases _ _ _).filter _ = conflicts
    cases conflicts with
    | nil | cons _ _ => rfl

theorem any_congr_of_mem {α : Type} {as bs : List α} (hsame : ∀ a, a ∈ as ↔ a ∈ bs)
    (p : α → Bool) : as.any p = bs.any p := by
  rw [Bool.eq_iff_iff, any_eq_true, any_eq_true]
  exact exists_congr fun a => and_congr_left' (hsame a)

theorem isEmpty_congr_of_mem {α : Type} {as bs : List α} (hsame : ∀ a, a ∈ as ↔ a ∈ bs) :
    as.isEmpty = bs.isEmpty := by
  rw [Bool.eq_iff_iff, List.isEmpty_iff, List.isEmpty_iff, eq_nil_iff_forall_not_mem,
    eq_nil_iff_forall_not_mem]
  exact forall_congr' fun a => not_congr (hsame a)

/-- **The state machine and the store decide alike**: over the same leases in any order, the same
ones are in the way, and the same state is granted. -/
theorem checkLeaseConflict_agrees (hsame : ∀ l, l ∈ state.leases.values ↔ l ∈ leases.values) :
    let raft := state.checkLeaseConflict filePath (some lease.leaseKey) r
    let memory := (checkAndCreateLease leases filePath lease r).1
    (∀ l, l ∈ raft.conflicts ↔ l ∈ memory.conflicts) ∧ raft.canGrant = memory.canGrant ∧
      raft.grantedState = memory.grantedState := by
  have hconfs : ∀ l, l ∈ conflictingLeases state.leases filePath lease r ↔
      l ∈ conflictingLeases leases filePath lease r := by
    simp only [conflictingLeases, otherLeases, mem_filter, hsame, implies_true]
  have hempty := isEmpty_congr_of_mem hconfs
  rw [checkLeaseConflict_eq, checkAndCreateLease_eq]
  refine ⟨hconfs, hempty, ?_⟩
  unfold grantedState RustSmb.reduceLeaseState
  rw [hempty, any_congr_of_mem hconfs]

/-- Two leases with read and write caching on one file, listed in one order and in the other. -/
theorem checkLeaseConflict_agrees_reversed :
    ∃ (state : CoordinationState) (leases : Table String LeaseEntry) (lease : LeaseEntry),
      state.leases.values = leases.values.reverse ∧ leases.values.length = 2 ∧
      (∀ l, l ∈ state.leases.values ↔ l ∈ leases.values) ∧
      (state.checkLeaseConflict "f" (some lease.leaseKey) 1).grantedState =
        (checkAndCreateLease leases "f" lease 1).1.grantedState := by
  let lease (key : String) : LeaseEntry := ⟨key, "", 1, "a", "f", 3, 1, 0, false, 0, none, false⟩
  let leases (k l : String) : Table String LeaseEntry :=
    (AList.singleton k (lease k)).insert l (lease l)
  let state := { new with leases := leases "l" "k" }
  have hsame : ∀ l, l ∈ state.leases.values ↔ l ∈ (leases "k" "l").values := fun l =>
    (Perm.swap (lease "l") (lease "k") []).mem_iff
  exact ⟨state, leases "k" "l", lease "m", rfl, rfl, hsame, (checkLeaseConflict_agrees hsame).2.2⟩

end Agreement

end CoordinationState

/-! ### The coordinator -/

/-- How requests are written to entries and read from them. -/
class RequestCodec where
  /-- The text of a request; it is empty if the request cannot be written. -/
  encode : CoordRequest → Bytes
  decode : Bytes → Option CoordRequest

open RequestCodec

/-- An entry of the log.  Its origin, the proposal and the request, is not part of the data. -/
structure Entry where
  data : Bytes
  origin : Option (ℕ × CoordRequest)

/-- What a call of `propose` returns, and why. -/
inductive Answer where
  /-- The response to the request that was read from the entry at an index. -/
  | applied (index : ℕ) (request : CoordRequest) (response : CoordResponse)
  /-- The library refused the proposal. -/
  | refused (response : CoordResponse)
  /-- The proposer has waited for five seconds. -/
  | timedOut (response : CoordResponse)
  deriving DecidableEq

/-- What a proposer gets that gives up. -/
def gaveUp : Answer := .timedOut (.error "Proposal timeout")

/-- The coordinator with its Raft node.  Channels are numbered in the order in which they are made,
from 1 on; the numbers do not wrap. -/
structure RaftCoordinator where
  stateMachine : CoordinationState
  /-- Proposals that wait for the next tick, with their channels. -/
  proposals : List (ℕ × CoordRequest)
  nextProposalId : ℕ
  /-- The channels of proposals that wait for a response. -/
  pendingResponses : Table ℕ ℕ
  /-- The log of the Raft node; the first entry has index 1. -/
  log : List Entry
  /-- The number of entries that the node has handed over as committed. -/
  handed : ℕ
  /-- The indices of entries that were handed over in a light ready state. -/
  dropped : List ℕ
  /-- What the proposers got, the newest first. -/
  sent : List (ℕ × Answer)

/-- What the library does in a tick. -/
structure Tick where
  /-- The number of empty entries that it appends. -/
  empties : ℕ
  /-- Does it accept the proposal with a channel? -/
  accepts : ℕ → Bool
  /-- Its error for the others. -/
  error : String
  hasReady : Bool
  /-- The number of committed entries in the ready state. -/
  committed : ℕ
  /-- A snapshot in the ready state. -/
  snapshot : Option CoordinationState
  /-- The number of committed entries in the light ready state. -/
  light : ℕ

namespace RaftCoordinator

def new : RaftCoordinator := ⟨.new, [], 1, ∅, [], 0, [], []⟩

/-- What the proposer with a channel got. -/
def received (c : RaftCoordinator) (channel : ℕ) : List Answer :=
  (c.sent.filter fun s => s.1 == channel).map Prod.snd

/-- A proposer takes the first answer that comes; then its channel is closed. -/
def send (c : RaftCoordinator) (channel : ℕ) (answer : Answer) : RaftCoordinator :=
  { c with
    sent := if (c.received channel).isEmpty then (channel, answer) :: c.sent else c.sent }

/-- A proposal is queued for the next tick; its proposer waits. -/
def propose (c : RaftCoordinator) (request : CoordRequest) : RaftCoordinator :=
  { c with proposals := c.proposals ++ [(c.nextProposalId + c.proposals.length, request)] }

/-- The wait of a proposer, if it is still waiting, is over. -/
def timeout (c : RaftCoordinator) (channel : ℕ) : RaftCoordinator :=
  if 0 < channel ∧ channel < c.nextProposalId + c.proposals.length then c.send channel gaveUp else c

variable [RequestCodec]

/-- A proposal is numbered, its channel is filed, and the library accepts it or not. -/
def proposeOne (t : Tick) (c : RaftCoordinator) (p : ℕ × CoordRequest) : RaftCoordinator :=
  let id := c.nextProposalId
  let c := { c with
    nextProposalId := id + 1
    pendingResponses := c.pendingResponses.insert id p.1 }
  if t.accepts p.1 then
    { c with log := c.log ++ [⟨encode p.2, some p⟩] }
  else
    { c with pendingResponses := c.pendingResponses.erase id }.send p.1
      (.refused (.error ("Raft proposal failed: " ++ t.error)))

/-- One committed entry is applied.  The response goes to the channel that is filed under the
index of the entry. -/
def applyEntry (c : RaftCoordinator) (index : ℕ) (entry : Entry) : RaftCoordinator :=
  if entry.data.isEmpty then c
  else
    match decode entry.data with
    | none => c
    | some request =>
        let result := c.stateMachine.apply request
        match c.pendingResponses.lookup index with
        | some tx =>
            { c with
              stateMachine := result.2
              pendingResponses := c.pendingResponses.erase index }.send tx
                (.applied index request result.1)
        | none => { c with stateMachine := result.2 }

/-- The entries of a ready state are applied; each is handed over. -/
def applyEntries : RaftCoordinator → List Entry → RaftCoordinator
  | c, [] => c
  | c, entry :: entries =>
      applyEntries (applyEntry { c with handed := c.handed + 1 } (c.handed + 1) entry) entries

/-- The next entries that are not yet handed over. -/
def next (c : RaftCoordinator) (n : ℕ) : List Entry := (c.log.drop c.handed).take n

/-- The entries of a light ready state are handed over and dropped. -/
def dropLight (c : RaftCoordinator) (n : ℕ) : RaftCoordinator :=
  let k := (c.next n).length
  { c with handed := c.handed + k, dropped := range' (c.handed + 1) k ++ c.dropped }

/-- A tick: propose what is queued, apply what is committed. -/
def tickAndProcess (t : Tick) (c : RaftCoordinator) : RaftCoordinator :=
  let c := { c with log := c.log ++ replicate t.empties (⟨[], none⟩ : Entry) }
  let c := c.proposals.foldl (proposeOne t) { c with proposals := [] }
  if !t.hasReady then c
  else
    let c := c.applyEntries (c.next t.committed)
    let c := { c with stateMachine := t.snapshot.getD c.stateMachine }
    c.dropLight t.light

/-- What can happen to a node. -/
inductive Step where
  | propose (request : CoordRequest)
  /-- Five seconds have passed for a proposer. -/
  | timeout (channel : ℕ)
  | tick (t : Tick)

def step (c : RaftCoordinator) : Step → RaftCoordinator
  | .propose request => c.propose request
  | .timeout channel => c.timeout channel
  | .tick t => c.tickAndProcess t

/-- The node after the steps. -/
def run (steps : List Step) : RaftCoordinator := steps.foldl step .new

/-! ### What holds in every run -/

/-- What holds of the coordinator after every run. -/
structure Inv (c : RaftCoordinator) : Prop where
  /-- The queue goes on with the numbers. -/
  queued : ∀ k p, c.proposals[k]? = some p → p.1 = c.nextProposalId + k
  /-- A channel is filed under its own number. -/
  filed : ∀ id tx, c.pendingResponses.lookup id = some tx → tx = id ∧ id < c.nextProposalId
  /-- An entry has the text of its request. -/
  logged : ∀ (i : ℕ) (e : Entry) n request, c.log[i]? = some e → e.origin = some (n, request) →
    n < c.nextProposalId ∧ e.data = encode request
  /-- Other entries are empty. -/
  empty : ∀ (i : ℕ) (e : Entry), c.log[i]? = some e → e.origin = none → e.data = []
  /-- A logged proposal waits until the entry with its number is handed over. -/
  waits : ∀ (i : ℕ) (e : Entry) n request, c.log[i]? = some e → e.origin = some (n, request) →
    c.pendingResponses.lookup n = some n ∨ n ≤ c.handed
  /-- A proposer whose channel is filed has received nothing, or has given up. -/
  silent : ∀ n, c.nextProposalId ≤ n ∨ c.pendingResponses.lookup n = some n →
    c.received n = [] ∨ c.received n = [gaveUp]
  /-- A response belongs to the entry whose index is the number of the channel. -/
  response : ∀ n i request response, .applied i request response ∈ c.received n →
    n = i ∧ 0 < i ∧ i ≤ c.handed ∧ i ∉ c.dropped ∧
      ∃ e : Entry, c.log[i - 1]? = some e ∧ e.data ≠ [] ∧ decode e.data = some request
  /-- An entry that is applied under the number of its proposal is answered, unless its proposer has
  given up. -/
  answered : ∀ (i : ℕ) (e : Entry) request, i < c.handed → c.log[i]? = some e →
    e.origin = some (i + 1, request) → i + 1 ∉ c.dropped → e.data ≠ [] →
    decode e.data = some request → c.received (i + 1) = [gaveUp] ∨
      ∃ response, c.received (i + 1) = [.applied (i + 1) request response]
  /-- Entries that are handed over are in the log. -/
  handed : c.handed ≤ c.log.length
  /-- Entries that are dropped were handed over. -/
  dropped : ∀ i ∈ c.dropped, i ≤ c.handed

omit [RequestCodec] in
theorem send_pendingResponses (c : RaftCoordinator) (tx : ℕ) (a : Answer) :
    (c.send tx a).pendingResponses = c.pendingResponses := rfl

omit [RequestCodec] in
theorem received_send (c : RaftCoordinator) (tx n : ℕ) (a : Answer) :
    (c.send tx a).received n = if tx = n ∧ c.received n = [] then [a] else c.received n := by
  unfold send received
  by_cases h : tx = n
  · subst h
    by_cases hempty : (c.sent.filter fun s => s.1 == tx) = []
    · simp [hempty]
    · simp [hempty]
  · by_cases hempty : (c.sent.filter fun s => s.1 == tx) = []
    · simp [hempty, h]
    · simp [hempty, h]

omit [RequestCodec] in
/-- What a proposer has after something was sent is that, or what it had. -/
theorem mem_received_send {c : RaftCoordinator} {tx n : ℕ} {a b : Answer}
    (h : b ∈ (c.send tx a).received n) : tx = n ∧ b = a ∨ b ∈ c.received n := by
  rw [received_send] at h
  split at h
  · next hsent => exact .inl ⟨hsent.1, mem_singleton.1 h⟩
  · exact .inr h

theorem Inv.new : Inv .new where
  queued := fun _ _ h => by cases h
  filed := fun _ _ h => by cases h
  logged := fun _ _ _ _ h => by cases h
  empty := fun _ _ h => by cases h
  waits := fun i e n r h => by cases h
  silent := fun _ _ => .inl rfl
  response := fun _ _ _ _ h => by cases h
  answered := fun i e r h => absurd h (not_lt_zero i)
  handed := le_refl 0
  dropped := fun _ h => by cases h

omit [RequestCodec] in
theorem getElem?_append_one {α : Type} {l : List α} {a e : α} {i : ℕ}
    (h : (l ++ [a])[i]? = some e) : l[i]? = some e ∨ i = l.length ∧ e = a := by
  rcases lt_trichotomy i l.length with hlt | heq | hgt
  · rw [getElem?_append_left hlt] at h
    exact .inl h
  · subst heq
    rw [getElem?_append_right (le_refl _), Nat.sub_self] at h
    exact .inr ⟨rfl, (Option.some.inj h).symm⟩
  · rw [getElem?_eq_none (by rw [length_append]; exact hgt)] at h
    cases h

namespace Inv

variable {c : RaftCoordinator}

section Kept

variable (h : Inv c)

include h

theorem propose (request : CoordRequest) : Inv (c.propose request) where
  __ := h
  queued := by
    intro k p hp
    rcases getElem?_append_one hp with hp | ⟨rfl, rfl⟩
    · exact h.queued k p hp
    · rfl

theorem withState (state : CoordinationState) :
    Inv { c with stateMachine := state } where
  __ := h

theorem takeQueue : Inv { c with proposals := [] } where
  __ := h
  queued := nofun

/-- An entry that the log gets keeps what is known of the entries before it. -/
theorem append_entry (entry : Entry)
    (hlogged : ∀ n request, entry.origin = some (n, request) → n < c.nextProposalId ∧
      entry.data = encode request ∧ c.pendingResponses.lookup n = some n)
    (hempty : entry.origin = none → entry.data = []) : Inv { c with log := c.log ++ [entry] } where
  __ := h
  logged := by
    intro i e n request he ho
    rcases getElem?_append_one he with he | ⟨-, rfl⟩
    · exact h.logged i e n request he ho
    · exact ⟨(hlogged n request ho).1, (hlogged n request ho).2.1⟩
  empty := by
    intro i e he ho
    rcases getElem?_append_one he with he | ⟨-, rfl⟩
    · exact h.empty i e he ho
    · exact hempty ho
  waits := by
    intro i e n request he ho
    rcases getElem?_append_one he with he | ⟨-, rfl⟩
    · exact h.waits i e n request he ho
    · exact .inl (hlogged n request ho).2.2
  response := by
    intro n i request response hmem
    obtain ⟨hn, hpos, hle, hdrop, e, he, hdata⟩ := h.response n i request response hmem
    exact ⟨hn, hpos, hle, hdrop, e,
      (getElem?_append_left (List.getElem?_eq_some_iff.1 he).1).trans he, hdata⟩
  answered := by
    intro i e request hi he
    rcases getElem?_append_one he with he | ⟨rfl, -⟩
    · exact h.answered i e request hi he
    · exact absurd hi (not_lt.2 h.handed)
  handed := by
    rw [length_append]
    exact le_add_right_of_le h.handed

theorem appendEmpties (n : ℕ) :
    Inv { c with log := c.log ++ replicate n (⟨[], none⟩ : Entry) } := by
  induction n with
  | zero =>
    rw [replicate_zero, append_nil]
    exact h
  | succ n ih =>
    rw [replicate_succ', ← append_assoc]
    exact ih.append_entry ⟨[], none⟩ nofun fun _ => rfl

theorem file (hq : c.proposals = []) :
    Inv { c with
      nextProposalId := c.nextProposalId + 1
      pendingResponses := c.pendingResponses.insert c.nextProposalId c.nextProposalId } where
  __ := h
  queued := by
    intro k p hp
    rw [hq] at hp
    cases hp
  filed := by
    intro id tx hid
    rcases of_lookup_insert hid with ⟨rfl, rfl⟩ | hid
    · exact ⟨rfl, lt_succ_self _⟩
    · obtain ⟨htx, hlt⟩ := h.filed id tx hid
      exact ⟨htx, lt_succ_of_lt hlt⟩
  logged := by
    intro i e n request he ho
    obtain ⟨hlt, hdata⟩ := h.logged i e n request he ho
    exact ⟨lt_succ_of_lt hlt, hdata⟩
  waits := by
    intro i e n request he ho
    rw [lookup_insert_ite]
    split
    · next heq => exact .inl (by rw [heq])
    · exact h.waits i e n request he ho
  silent := by
    intro n hn
    rw [lookup_insert_ite] at hn
    apply h.silent n
    split at hn
    · next heq => exact .inl (le_of_eq heq.symm)
    · exact hn.imp_left le_of_succ_le

/-- A number is used up, and its channel is not filed. -/
theorem passNumber (hq : c.proposals = []) {pending : Table ℕ ℕ}
    (hlook : ∀ n, pending.lookup n = c.pendingResponses.lookup n) :
    Inv { c with nextProposalId := c.nextProposalId + 1, pendingResponses := pending } where
  __ := h
  queued := by
    intro k p hp
    rw [hq] at hp
    cases hp
  filed := by
    intro id tx hid
    rw [hlook] at hid
    obtain ⟨htx, hlt⟩ := h.filed id tx hid
    exact ⟨htx, lt_succ_of_lt hlt⟩
  logged := by
    intro i e n request he ho
    obtain ⟨hlt, hdata⟩ := h.logged i e n request he ho
    exact ⟨lt_succ_of_lt hlt, hdata⟩
  waits := by
    intro i e n request he ho
    rw [hlook]
    exact h.waits i e n request he ho
  silent := by
    intro n hn
    rw [hlook] at hn
    exact h.silent n (hn.imp_left le_of_succ_le)

/-- An answer that is not a response goes to a proposer whose channel is not filed, or ends its
wait. -/
theorem send {tx : ℕ} {a : Answer} (happ : ∀ i request response, a ≠ .applied i request response)
    (hfiled : a = gaveUp ∨ tx < c.nextProposalId ∧ c.pendingResponses.lookup tx ≠ some tx) :
    Inv (c.send tx a) where
  __ := h
  silent := by
    intro n hn
    rw [received_send]
    split
    · next hsent =>
      obtain ⟨rfl, -⟩ := hsent
      rcases hfiled with rfl | ⟨hlt, hnot⟩
      · exact .inr rfl
      · exact absurd hn (not_or_intro (not_le.2 hlt) hnot)
    · exact h.silent n hn
  response := by
    intro n i request response hmem
    rcases mem_received_send hmem with ⟨-, heq⟩ | hold
    · exact absurd heq.symm (happ i request response)
    · exact h.response n i request response hold
  answered := by
    intro i e request hi he ho hdrop hdata hdec
    have hgot := h.answered i e request hi he ho hdrop hdata hdec
    have hsome : c.received (i + 1) ≠ [] := by
      rcases hgot with hgot | ⟨response, hgot⟩ <;> simp [hgot]
    rw [received_send, if_neg fun hsent => hsome hsent.2]
    exact hgot

theorem timeout (channel : ℕ) : Inv (c.timeout channel) := by
  unfold RaftCoordinator.timeout
  split
  · exact h.send nofun (.inl rfl)
  · exact h

theorem proposeOne (hq : c.proposals = []) (t : Tick) {p : ℕ × CoordRequest}
    (hp : p.1 = c.nextProposalId) : Inv (proposeOne t c p) := by
  obtain ⟨n, request⟩ := p
  cases hp
  unfold RaftCoordinator.proposeOne
  split
  · -- accepted: the entry is logged, and its channel is filed
    apply (h.file hq).append_entry
    · rintro n' request' ho
      cases ho
      exact ⟨lt_succ_self _, rfl, AList.lookup_insert _⟩
    · nofun
  · -- refused: the channel is taken back and gets the error
    have hfree : ∀ tx, c.pendingResponses.lookup c.nextProposalId ≠ some tx := fun tx htx =>
      lt_irrefl _ (h.filed _ tx htx).2
    refine (h.passNumber hq fun n => ?_).send nofun (.inr ⟨lt_succ_self _, ?_⟩)
    · rw [lookup_erase_ite, lookup_insert_ite]
      split
      · next heq => rw [heq, Option.eq_none_iff_forall_ne_some.2 hfree]
      · rfl
    · rw [lookup_erase_ite, if_pos rfl]
      nofun

theorem skip {entry : Entry} (he : c.log[c.handed]? = some entry)
    (hno : ∀ request, entry.origin = some (c.handed + 1, request) → entry.data ≠ [] →
      decode entry.data ≠ some request) :
    Inv { c with handed := c.handed + 1 } where
  __ := h
  waits := by
    intro i e n request he ho
    exact (h.waits i e n request he ho).imp_right le_succ_of_le
  response := by
    intro n i request response hmem
    obtain ⟨hn, hpos, hle, hrest⟩ := h.response n i request response hmem
    exact ⟨hn, hpos, le_succ_of_le hle, hrest⟩
  answered := by
    intro i e request hi hi' ho hdrop hdata hdec
    rcases Nat.lt_succ_iff_lt_or_eq.1 hi with hlt | rfl
    · exact h.answered i e request hlt hi' ho hdrop hdata hdec
    · have heq : entry = e := Option.some.inj (he.symm.trans hi')
      subst heq
      exact absurd hdec (hno request ho hdata)
  handed := (List.getElem?_eq_some_iff.1 he).1
  dropped := fun i hi => le_succ_of_le (h.dropped i hi)

theorem answer {entry : Entry} (he : c.log[c.handed]? = some entry) {request : CoordRequest}
    (hdata : entry.data ≠ []) (hdec : decode entry.data = some request) {tx : ℕ}
    (htx : c.pendingResponses.lookup (c.handed + 1) = some tx) (response : CoordResponse) :
    Inv ({ c with
      handed := c.handed + 1
      pendingResponses := c.pendingResponses.erase (c.handed + 1) }.send tx
        (.applied (c.handed + 1) request response)) := by
  obtain ⟨rfl, hlt⟩ := h.filed _ tx htx
  refine
    { h with
      filed := ?_
      waits := ?_
      silent := ?_
      response := ?_
      answered := ?_
      handed := (List.getElem?_eq_some_iff.1 he).1
      dropped := fun i hi => le_succ_of_le (h.dropped i hi) }
  · exact fun id tx hid => h.filed id tx (of_lookup_erase hid)
  · intro i e n request he ho
    rw [send_pendingResponses, lookup_erase_ite]
    split
    · next heq => exact .inr (le_of_eq heq)
    · exact (h.waits i e n request he ho).imp_right le_succ_of_le
  · intro n hn
    rw [send_pendingResponses, lookup_erase_ite] at hn
    have hne : c.handed + 1 ≠ n := by
      rintro rfl
      rw [if_pos rfl] at hn
      rcases hn with hn | hn
      · exact absurd hlt (not_lt.2 hn)
      · cases hn
    rw [if_neg fun heq => hne heq.symm] at hn
    rw [received_send, if_neg fun hsent => hne hsent.1]
    exact h.silent n hn
  · intro n i request' response' hmem
    rcases mem_received_send hmem with ⟨rfl, heq⟩ | hold
    · cases heq
      have hfresh : c.handed + 1 ∉ c.dropped := fun hmem =>
        absurd (h.dropped _ hmem) (not_succ_le_self _)
      exact ⟨rfl, succ_pos _, le_refl _, hfresh, entry, he, hdata, hdec⟩
    · obtain ⟨hn, hpos, hle, hrest⟩ := h.response n i request' response' hold
      exact ⟨hn, hpos, le_succ_of_le hle, hrest⟩
  · intro i e request' hi hi' ho hdrop hdata' hdec'
    rcases Nat.lt_succ_iff_lt_or_eq.1 hi with hold | rfl
    · rw [received_send, if_neg (by omega)]
      exact h.answered i e request' hold hi' ho hdrop hdata' hdec'
    · -- this is the entry; its channel is filed, so its proposer waits or has given up
      have heq : entry = e := Option.some.inj (he.symm.trans hi')
      subst heq
      rw [hdec] at hdec'
      cases hdec'
      rw [received_send]
      rcases h.silent _ (.inr htx) with hempty | hgave
      · exact .inr ⟨response, if_pos ⟨rfl, hempty⟩⟩
      · have hsome : c.received (c.handed + 1) ≠ [] := by simp [hgave]
        exact .inl ((if_neg fun hsent => hsome hsent.2).trans hgave)

theorem applyEntry {entry : Entry} (he : c.log[c.handed]? = some entry) :
    Inv (applyEntry { c with handed := c.handed + 1 } (c.handed + 1) entry) := by
  unfold RaftCoordinator.applyEntry
  split
  · next hempty => exact h.skip he fun request _ hdata => absurd (isEmpty_iff.1 hempty) hdata
  · next hdata =>
    have hdata : entry.data ≠ [] := fun heq => hdata (isEmpty_iff.2 heq)
    split
    · next hdec =>
      apply h.skip he
      intro request _ _ heq
      rw [hdec] at heq
      cases heq
    · next request hdec =>
      split
      · next tx htx => exact (h.answer he hdata hdec htx _).withState _
      · next hnone =>
        -- nobody waits under this number, in particular not the one who proposed the entry
        refine (h.skip he ?_).withState _
        intro request' ho
        rcases h.waits _ _ _ _ he ho with hwaits | hle
        · rw [hnone] at hwaits
          cases hwaits
        · exact absurd hle (not_succ_le_self _)

end Kept

end Inv

theorem applyEntry_log (c : RaftCoordinator) (index : ℕ) (entry : Entry) :
    (c.applyEntry index entry).log = c.log ∧ (c.applyEntry index entry).handed = c.handed := by
  unfold applyEntry
  split
  · exact ⟨rfl, rfl⟩
  split
  · exact ⟨rfl, rfl⟩
  split <;> exact ⟨rfl, rfl⟩

theorem proposeOne_next (t : Tick) (c : RaftCoordinator) (p : ℕ × CoordRequest) :
    (proposeOne t c p).nextProposalId = c.nextProposalId + 1 ∧
      (proposeOne t c p).proposals = c.proposals := by
  unfold proposeOne
  split <;> exact ⟨rfl, rfl⟩

namespace Inv

variable {c : RaftCoordinator}

theorem proposeAll (t : Tick) {queue : List (ℕ × CoordRequest)} (h : Inv c)
    (hq : c.proposals = []) (hqueue : ∀ k p, queue[k]? = some p → p.1 = c.nextProposalId + k) :
    Inv (queue.foldl (RaftCoordinator.proposeOne t) c) := by
  induction queue generalizing c with
  | nil => exact h
  | cons p queue ih =>
    obtain ⟨hnext, hempty⟩ := proposeOne_next t c p
    apply ih (h.proposeOne hq t (hqueue 0 p rfl)) (hempty.trans hq)
    intro k p' hp'
    have hk := hqueue (k + 1) p' hp'
    omega

theorem applyEntries {entries : List Entry} (h : Inv c)
    (hents : ∀ k e, entries[k]? = some e → c.log[c.handed + k]? = some e) :
    Inv (c.applyEntries entries) := by
  induction entries generalizing c with
  | nil => exact h
  | cons entry entries ih =>
    obtain ⟨hlog, hhanded⟩ := applyEntry_log { c with handed := c.handed + 1 } (c.handed + 1) entry
    apply ih (h.applyEntry (hents 0 entry rfl))
    intro k e he
    rw [hlog, hhanded]
    have hk := hents (k + 1) e he
    have hidx : c.handed + 1 + k = c.handed + (k + 1) := by omega
    rw [hidx]
    exact hk

theorem dropLight (h : Inv c) (n : ℕ) : Inv (c.dropLight n) := by
  have hlen : (c.next n).length ≤ c.log.length - c.handed := by
    unfold next
    rw [length_take, length_drop]
    omega
  have hhanded := h.handed
  refine
    { h with
      waits := ?_
      response := ?_
      answered := ?_
      handed := ?_
      dropped := ?_ }
  · intro i e n request he ho
    exact (h.waits i e n request he ho).imp_right le_add_right_of_le
  · intro n' i request response hmem
    obtain ⟨hn, hpos, hle, hdrop, hrest⟩ := h.response n' i request response hmem
    refine ⟨hn, hpos, le_add_right_of_le hle, fun hmem => ?_, hrest⟩
    rcases mem_append.1 hmem with hmem | hmem
    · obtain ⟨hlow, -⟩ := mem_range'_1.1 hmem
      omega
    · exact hdrop hmem
  · intro i e request hi he ho hdrop hdata hdec
    have hi : i < c.handed + (c.next n).length := hi
    have hold : i < c.handed := by
      by_contra hge
      refine hdrop (mem_append_left _ (mem_range'_1.2 ?_))
      omega
    exact h.answered i e request hold he ho (fun hmem => hdrop (mem_append_right _ hmem)) hdata hdec
  · show c.handed + (c.next n).length ≤ c.log.length
    omega
  · intro i hi
    show i ≤ c.handed + (c.next n).length
    rcases mem_append.1 hi with hi | hi
    · obtain ⟨-, hhigh⟩ := mem_range'_1.1 hi
      omega
    · exact le_add_right_of_le (h.dropped i hi)

omit [RequestCodec] in
theorem getElem?_next (c : RaftCoordinator) (n : ℕ) {k : ℕ} {e : Entry}
    (he : (c.next n)[k]? = some e) : c.log[c.handed + k]? = some e := by
  unfold next at he
  rw [getElem?_take] at he
  split at he
  · rwa [getElem?_drop] at he
  · cases he

/-- **A tick keeps the invariant.** -/
theorem tickAndProcess (h : Inv c) (t : Tick) : Inv (c.tickAndProcess t) := by
  unfold RaftCoordinator.tickAndProcess
  have hproposed : Inv (c.proposals.foldl (RaftCoordinator.proposeOne t)
      { c with
        log := c.log ++ replicate t.empties (⟨[], none⟩ : Entry)
        proposals := [] }) :=
    (h.appendEmpties t.empties).takeQueue.proposeAll t rfl h.queued
  split
  · exact hproposed
  · exact ((hproposed.applyEntries fun k e he => getElem?_next _ _ he).withState _).dropLight _

/-- **What holds in every run.** -/
theorem run (steps : List Step) : Inv (run steps) := by
  have hsteps : ∀ c, Inv c → Inv (steps.foldl step c) := by
    induction steps with
    | nil => exact fun c h => h
    | cons step steps ih =>
      intro c h
      apply ih
      cases step with
      | propose request => exact h.propose request
      | timeout channel => exact h.timeout channel
      | tick t => exact h.tickAndProcess t
  exact hsteps .new .new

end Inv

/-! ### Own answers -/

/-- Every proposer whose request is committed has received the response to it and nothing else,
and none has received a response to another proposal. -/
def AnsweredOwn (c : RaftCoordinator) : Prop :=
  (∀ (i : ℕ) (e : Entry) n request, i < c.handed → c.log[i]? = some e →
    e.origin = some (n, request) →
    ∃ response, c.received n = [.applied (i + 1) request response]) ∧
  ∀ n i request response, .applied i request response ∈ c.received n →
    ∃ e : Entry, c.log[i - 1]? = some e ∧ e.origin = some (n, request)

/-- The index of each entry that was handed over is the number of its proposal, the entry was not
in a light ready state and can be read, and its proposer had not given up. -/
def InStep (c : RaftCoordinator) : Prop :=
  ∀ (i : ℕ) (e : Entry) n request, i < c.handed → c.log[i]? = some e →
    e.origin = some (n, request) →
    n = i + 1 ∧ i + 1 ∉ c.dropped ∧ encode request ≠ [] ∧
      decode (encode request) = some request ∧ c.received n ≠ [gaveUp]

/-- What an entry does to the state. -/
def applyTo (state : CoordinationState) (entry : Entry) : CoordinationState :=
  if entry.data.isEmpty then state
  else ((decode entry.data).map fun request => (state.apply request).2).getD state

/-- The state after the first entries of the log in turn, but for those that were dropped. -/
def replay (c : RaftCoordinator) : ℕ → CoordinationState
  | 0 => .new
  | n + 1 =>
      if n + 1 ∈ c.dropped then c.replay n else (c.log[n]?).elim (c.replay n) (applyTo (c.replay n))

/-- The state is what the entries that were handed over make of it. -/
def Replays (c : RaftCoordinator) : Prop := c.stateMachine = c.replay c.handed

variable {c c' : RaftCoordinator}

theorem replay_congr {n : ℕ} (hlog : ∀ i < n, c'.log[i]? = c.log[i]?)
    (hdrop : ∀ i ≤ n, i ∈ c'.dropped ↔ i ∈ c.dropped) : c'.replay n = c.replay n := by
  induction n with
  | zero => rfl
  | succ n ih =>
    have hprev := ih (fun i hi => hlog i (by omega)) fun i hi => hdrop i (by omega)
    simp only [replay, hprev, hlog n (lt_succ_self n), hdrop (n + 1) le_rfl]

theorem applyEntry_state (c : RaftCoordinator) (index : ℕ) (entry : Entry) :
    (c.applyEntry index entry).stateMachine = applyTo c.stateMachine entry ∧
      (c.applyEntry index entry).dropped = c.dropped := by
  unfold applyEntry applyTo
  split
  · exact ⟨rfl, rfl⟩
  cases decode entry.data with
  | none => exact ⟨rfl, rfl⟩
  | some request =>
    dsimp only
    split <;> exact ⟨rfl, rfl⟩

namespace Replays

variable (hc : c.Replays)

include hc

theorem congr (hstate : c'.stateMachine = c.stateMachine) (hhanded : c'.handed = c.handed)
    (hlog : ∀ i < c.handed, c'.log[i]? = c.log[i]?) (hdrop : c'.dropped = c.dropped) :
    c'.Replays := by
  unfold Replays
  rw [hstate, hhanded, replay_congr hlog fun i _ => by rw [hdrop]]
  exact hc

theorem timeout (channel : ℕ) : (c.timeout channel).Replays := by
  unfold RaftCoordinator.timeout
  split
  · exact hc.congr rfl rfl (fun _ _ => rfl) rfl
  · exact hc

theorem proposeAll (t : Tick) (queue : List (ℕ × CoordRequest))
    (hle : c.handed ≤ c.log.length) : (queue.foldl (proposeOne t) c).Replays := by
  induction queue generalizing c with
  | nil => exact hc
  | cons p queue ih =>
    have hstep : (proposeOne t c p).Replays ∧
        (proposeOne t c p).handed ≤ (proposeOne t c p).log.length := by
      unfold proposeOne
      split
      · exact ⟨hc.congr rfl rfl (fun i hi => getElem?_append_left (hi.trans_le hle)) rfl,
          hle.trans (prefix_append _ _).length_le⟩
      · exact ⟨hc.congr rfl rfl (fun _ _ => rfl) rfl, hle⟩
    exact ih hstep.1 hstep.2

theorem applyEntries (h : Inv c) {entries : List Entry}
    (hents : ∀ k e, entries[k]? = some e → c.log[c.handed + k]? = some e) :
    (c.applyEntries entries).Replays := by
  induction entries generalizing c with
  | nil => exact hc
  | cons entry entries ih =>
    obtain ⟨hlog, hhanded⟩ := applyEntry_log { c with handed := c.handed + 1 } (c.handed + 1) entry
    have he : c.log[c.handed]? = some entry := hents 0 entry rfl
    obtain ⟨hstate, hdrop⟩ :=
      applyEntry_state { c with handed := c.handed + 1 } (c.handed + 1) entry
    refine ih ?_ (h.applyEntry he) fun k e hk => ?_
    · unfold Replays
      rw [hstate, hhanded, replay_congr (c := c) (fun i _ => by rw [hlog]) fun i _ => by rw [hdrop],
        replay, if_neg fun hmem => absurd (h.dropped _ hmem) (not_succ_le_self _), he, ← hc]
      rfl
    · rw [hlog, hhanded, Nat.add_assoc, Nat.add_comm 1 k]
      exact hents (k + 1) e hk

theorem dropLight (n : ℕ) : (c.dropLight n).Replays := by
  -- what is handed over is dropped at once
  have hskip : ∀ k ≤ (c.next n).length,
      (c.dropLight n).replay (c.handed + k) = (c.dropLight n).replay c.handed := by
    intro k hk
    induction k with
    | zero => rfl
    | succ k ih =>
      have hmem : c.handed + k + 1 ∈ (c.dropLight n).dropped :=
        mem_append_left _ (mem_range'_1.2 (by omega))
      rw [← Nat.add_assoc, replay, if_pos hmem]
      exact ih (by omega)
  have hkept : (c.dropLight n).replay c.handed = c.replay c.handed := by
    refine replay_congr (fun _ _ => rfl) fun i hi => mem_append.trans (or_iff_right fun hmem => ?_)
    have hlow := (mem_range'_1.1 hmem).1
    omega
  exact hc.trans (hkept.symm.trans (hskip _ le_rfl).symm)

theorem tickAndProcess (h : Inv c) {t : Tick} (ht : t.snapshot = none) :
    (c.tickAndProcess t).Replays := by
  have hinv := (h.appendEmpties t.empties).takeQueue.proposeAll t rfl h.queued
  have hgrown : Replays { c with
      log := c.log ++ replicate t.empties (⟨[], none⟩ : Entry), proposals := [] } :=
    hc.congr rfl rfl (fun i hi => getElem?_append_left (hi.trans_le h.handed)) rfl
  have hprop := hgrown.proposeAll t c.proposals (h.handed.trans (prefix_append _ _).length_le)
  unfold RaftCoordinator.tickAndProcess
  dsimp only
  split
  · exact hprop
  · rw [ht]
    exact (hprop.applyEntries hinv fun k e he => Inv.getElem?_next _ _ he).dropLight _

end Replays

/-- **In every run without snapshots, the state is what the committed entries make of it in the
order of the log**, but for those of light ready states. -/
theorem run_replays {steps : List Step} (hsnap : ∀ t, .tick t ∈ steps → t.snapshot = none) :
    (run steps).Replays := by
  have hsteps : ∀ c, Inv c → c.Replays → (steps.foldl step c).Replays := by
    induction steps with
    | nil => exact fun c _ hc => hc
    | cons step steps ih =>
      intro c h hc
      have htail := ih fun t ht => hsnap t (mem_cons_of_mem _ ht)
      cases step with
      | propose request =>
        exact htail _ (h.propose request) (hc.congr rfl rfl (fun _ _ => rfl) rfl)
      | timeout channel => exact htail _ (h.timeout channel) (hc.timeout channel)
      | tick t =>
        exact htail _ (h.tickAndProcess t) (hc.tickAndProcess h (hsnap t mem_cons_self))
  exact hsteps .new .new rfl

end RaftCoordinator

namespace Sample

open RaftCoordinator

/-- A codec that can write one request. -/
instance codec : RequestCodec where
  encode _ := [1]
  decode _ := some .incrementEpoch

/-- A node that accepts everything, commits at once, and appends some empty entries. -/
def tick (empties : ℕ) : Tick := ⟨empties, fun _ => true, "", true, 2, none, 0⟩

/-- The entry of the election does nothing, and the request after it counts one epoch. -/
theorem run_replays_election :
    (run [.propose .incrementEpoch, .tick (tick 1)]).stateMachine.cacheEpoch = 2 ∧
      (run [.propose .incrementEpoch, .tick (tick 1)]).Replays :=
  ⟨by decide +kernel, run_replays fun t ht => by simp_all [tick]⟩

end Sample

end RustSmb.Raft
