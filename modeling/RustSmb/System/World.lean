import RustSmb.Server.Handler

/-!
# The surroundings of the connections

Everything that connection handlers share: the state store, a break registry and an authentication
provider for each server, the backends of the shares, and what comes from outside (`Oracle`): the
clock, random bytes and what becomes of a wait.

-/

namespace RustSmb

/-- What comes from outside.  `outcomes` lists what the next waits for an open channel will find;
then they time out. -/
structure Oracle where
  now : UInt64 := 0
  filetime : UInt64 := 0
  random : Bytes := Bytes.zeros 16
  challenge : Bytes := Bytes.zeros 8
  outcomes : List BreakWait := []

/-- The surroundings of the connections, for providers in `α` and backends in `β`. -/
structure World (α β : Type) where
  store : MemoryStateStore
  registries : String → LeaseBreakRegistry
  providers : String → α
  backends : String → β
  oracle : Oracle

namespace World

variable {α β : Type}

def init (providers : String → α) (backends : String → β) (oracle : Oracle) : World α β where
  store := .new
  registries := fun _ => .new
  providers := providers
  backends := backends
  oracle := oracle

/-- The store reads the clock of the oracle. -/
def callStore (o : StoreOp) (w : World α β) : o.Res × World α β :=
  let r := MemoryStateStore.answer w.oracle.now o w.store
  (r.1, { w with store := r.2 })

/-- What the next wait for an acknowledgment finds in an open channel. -/
def nextOutcome (w : World α β) : BreakWait := w.oracle.outcomes.headD .elapsed

def waits : RegistryOp → Bool
  | .awaitCompletion _ => true
  | _ => false

/-- Each server has a registry of its own. -/
def callRegistry (serverId : String) (o : RegistryOp) (w : World α β) : o.Res × World α β :=
  let r := LeaseBreakRegistry.answer w.nextOutcome o (w.registries serverId)
  (r.1,
    { w with
      registries := Function.update w.registries serverId r.2
      oracle :=
        if waits o then { w.oracle with outcomes := w.oracle.outcomes.tail } else w.oracle })

variable [AuthProvider α] [StorageBackend β]

/-- What the world answers and becomes. -/
def answer : (o : SmbOp) → World α β → o.Res × World α β
  | .store o, w => w.callStore o
  | .backend share o, w =>
      let r := StorageBackend.answer o (w.backends share)
      (r.1, { w with backends := Function.update w.backends share r.2 })
  | .registry serverId o, w => w.callRegistry serverId o
  | .authenticate serverId ctx token, w =>
      let r := AuthProvider.authenticate ⟨w.oracle.challenge, w.oracle.filetime⟩ ctx token
        (w.providers serverId)
      (r.1, { w with providers := Function.update w.providers serverId r.2 })
  | .now, w => (w.oracle.now, w)
  | .filetime, w => (w.oracle.filetime, w)
  | .random, w => (w.oracle.random, w)

@[simp]
theorem answer_store (o : StoreOp) (w : World α β) :
    answer (.store o) w =
      ((MemoryStateStore.answer w.oracle.now o w.store).1,
        { w with store := (MemoryStateStore.answer w.oracle.now o w.store).2 }) := rfl

/-- The call can change the store. -/
def writesStore : SmbOp → Bool
  | .store o => o.isWrite || (match o with
      | .nextSessionId | .nextTreeId _ | .nextHandleId | .nextFileLockId => true
      | _ => false)
  | _ => false

end World

end RustSmb
