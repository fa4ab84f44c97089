import PhoenixChannel.Library.Tables
import PhoenixChannel.Runtime.Frame

/-! Presence: who is on a channel, and with which connections.

A `PresenceState` holds an entry for each key with one meta for each connection, told
apart by its `phx_ref`. `PresenceTracker` keeps the state up to date from full states and
diffs; a diff that comes before its full state waits for it.

The functions that update a state in place return the state they leave next to their
result, since an error can stop them halfway. -/
namespace PhoenixChannel.Runtime
open Library (Table)

/-- The metadata of one connection: a JSON object. -/
abbrev Meta := Members

/-- A presence entry: its metas, and the fields next to them. -/
structure Presence where
  metas : List Meta
  fields : Members

/-- Presence entries by key. -/
abbrev PresenceState := Table String Presence

/-- Entries or metas that joined and that left. -/
structure PresenceDiff where
  joins : PresenceState
  leaves : PresenceState

/-- Invalid presence state, diff or metadata. -/
inductive PresenceError where
  | invalidState
  | invalidDiff
  | invalidPresence (key : String)
  | invalidMetas (key : String)
  | invalidMeta (key : String)
  | missingReference (key : String)
  | binaryPayload
  deriving DecidableEq, Repr

def PresenceError.toString : PresenceError → String
  | .invalidState => "presence state must be an object"
  | .invalidDiff => "presence diff must contain joins and leaves objects"
  | .invalidPresence key => "presence entry for " ++ key ++ " must be an object"
  | .invalidMetas key => "presence entry for " ++ key ++ " must contain a metas array"
  | .invalidMeta key => "presence meta for " ++ key ++ " must be an object"
  | .missingReference key => "presence meta for " ++ key ++ " must contain a string phx_ref"
  | .binaryPayload => "presence events cannot use binary payloads"

/-- The string under `phx_ref`, if there is one. -/
def Meta.phxRef (m : Meta) : Option String := (Members.get m "phx_ref").bind Value.asStr

def metaRef (key : String) (m : Meta) : Except PresenceError String :=
  match m.phxRef with
  | some r => .ok r
  | none => .error (.missingReference key)

/-- The references of a list of metas. Only membership in them is ever asked for. -/
def refs (key : String) (metas : List Meta) : Except PresenceError (List String) :=
  metas.mapM (metaRef key)

/-- `meta_ref(key, meta).unwrap_or_default()`. -/
def Meta.refOrDefault (m : Meta) : String := m.phxRef.getD ""

/-! ### Decoding

A state is an object of objects with a list of metas each, and a diff is two states. The first part
that is not ends the decoding with its error. -/

namespace Presence

def metaFromValue (key : String) (value : Value) : Except PresenceError Meta :=
  match value.asObject with
  | none => .error (.invalidMeta key)
  | some m =>
    match metaRef key m with
    | .error e => .error e
    | .ok _ => .ok m

def fromValue (key : String) (value : Value) : Except PresenceError Presence :=
  match value.asObject with
  | none => .error (.invalidPresence key)
  | some fields =>
    match (Members.get fields "metas").bind Value.asArray with
    | none => .error (.invalidMetas key)
    | some items =>
      match items.mapM (metaFromValue key) with
      | .error e => .error e
      | .ok metas => .ok ⟨metas, Members.remove fields "metas"⟩

end Presence

namespace PresenceState

/-- Decodes the members one after another, the first failure ending the decoding. -/
def fromMembers (state : PresenceState) : Members → Except PresenceError PresenceState
  | [] => .ok state
  | (key, value) :: rest =>
    match Presence.fromValue key value with
    | .error e => .error e
    | .ok presence => fromMembers (state.insert key presence) rest

def fromValue (value : Value) : Except PresenceError PresenceState :=
  match value.asObject with
  | none => .error .invalidState
  | some members => fromMembers ∅ members

end PresenceState

namespace PresenceDiff

def empty : PresenceDiff := ⟨∅, ∅⟩

def fromValue (value : Value) : Except PresenceError PresenceDiff :=
  match value.asObject with
  | none => .error .invalidDiff
  | some diff =>
    match Members.get diff "joins", Members.get diff "leaves" with
    | some joins, some leaves =>
      match PresenceState.fromValue joins with
      | .error e => .error e
      | .ok joins =>
        match PresenceState.fromValue leaves with
        | .error e => .error e
        | .ok leaves => .ok ⟨joins, leaves⟩
    | _, _ => .error .invalidDiff

end PresenceDiff

/-- Adds the metas of `source` to the entries `target` has, and the other entries whole. -/
def extendState (target source : PresenceState) : PresenceState :=
  source.foldl (fun target key presence =>
    match target[key]? with
    | some existing => target.insert key { existing with metas := existing.metas ++ presence.metas }
    | none => target.insert key presence) target

def PresenceDiff.extend (diff other : PresenceDiff) : PresenceDiff :=
  ⟨extendState diff.joins other.joins, extendState diff.leaves other.leaves⟩

/-! ### Synchronization

Entries are taken in order; an error leaves those before it applied. -/

/-- Merges one joined entry: metas it brings again are replaced. -/
def joinEntry (state : PresenceState) (key : String) (joined : Presence) :
    Except PresenceError PresenceState :=
  match refs key joined.metas with
  | .error e => .error e
  | .ok joinedRefs =>
    match state[key]? with
    | none => .ok (state.insert key joined)
    | some current =>
      let existing := current.metas.filter fun m => !joinedRefs.contains m.refOrDefault
      .ok (state.insert key { joined with metas := existing ++ joined.metas })

/-- Removes the metas of one left entry, and the entry with its last meta. -/
def leaveEntry (state : PresenceState) (key : String) (left : Presence) :
    Except PresenceError PresenceState :=
  match refs key left.metas with
  | .error e => .error e
  | .ok leftRefs =>
    match state[key]? with
    | none => .ok state
    | some current =>
      let metas := current.metas.filter fun m => !leftRefs.contains m.refOrDefault
      if metas.isEmpty then .ok (state.erase key)
      else .ok (state.insert key { current with metas })

/-- Runs `f` over entries in order; a failure leaves what was done before it. -/
def eachEntry (f : PresenceState → String → Presence → Except PresenceError PresenceState) :
    PresenceState → List (String × Presence) → Except PresenceError Unit × PresenceState
  | state, [] => (.ok (), state)
  | state, (key, presence) :: rest =>
    match f state key presence with
    | .error e => (.error e, state)
    | .ok state => eachEntry f state rest

/-- Applies incremental joins and leaves. -/
def syncDiff (state : PresenceState) (diff : PresenceDiff) :
    Except PresenceError PresenceDiff × PresenceState :=
  match eachEntry joinEntry state diff.joins.toList with
  | (.error e, state) => (.error e, state)
  | (.ok _, state) =>
    match eachEntry leaveEntry state diff.leaves.toList with
    | (.error e, state) => (.error e, state)
    | (.ok _, state) => (.ok diff, state)

/-- Records an entry with some of its metas, if there are any. -/
def insertMetas (state : PresenceState) (key : String) (presence : Presence) (metas : List Meta) :
    PresenceState :=
  if metas.isEmpty then state else state.insert key { presence with metas }

/-- Compares one entry of a full state with the current one. -/
def compareEntry (state : PresenceState) (changes : PresenceDiff) (key : String)
    (newPresence : Presence) : Except PresenceError PresenceDiff :=
  match state[key]? with
  | none => .ok { changes with joins := changes.joins.insert key newPresence }
  | some current =>
    match refs key current.metas with
    | .error e => .error e
    | .ok currentRefs =>
      match refs key newPresence.metas with
      | .error e => .error e
      | .ok newRefs =>
        let joinedMetas := newPresence.metas.filter fun m => !currentRefs.contains m.refOrDefault
        let leftMetas := current.metas.filter fun m => !newRefs.contains m.refOrDefault
        .ok ⟨insertMetas changes.joins key newPresence joinedMetas,
          insertMetas changes.leaves key current leftMetas⟩

def compareEntries (state : PresenceState) :
    PresenceDiff → List (String × Presence) → Except PresenceError PresenceDiff
  | changes, [] => .ok changes
  | changes, (key, newPresence) :: rest =>
    match compareEntry state changes key newPresence with
    | .error e => .error e
    | .ok changes => compareEntries state changes rest

/-- Replaces the state with a full one, by way of the changes between the two. -/
def syncState (state newState : PresenceState) :
    Except PresenceError PresenceDiff × PresenceState :=
  let gone := state.filter fun key _ => !newState.contains key
  match compareEntries state ⟨∅, gone⟩ newState.toList with
  | .error e => (.error e, state)
  | .ok changes =>
    match syncDiff state changes with
    | (.error e, state) => (.error e, state)
    | (.ok _, state) => (.ok changes, state)

/-! ### The tracker

A full state replaces what there was and replays the queue. A diff is applied at once only when it
is of the same join reference as the full state. -/

/-- What applying a frame did. -/
inductive PresenceUpdate where
  | ignored
  | pending
  | synced (changes : PresenceDiff)

structure PresenceTracker where
  state : PresenceState
  joinRef : Option Reference
  pendingDiffs : List PresenceDiff
  stateEvent : String
  diffEvent : String

namespace PresenceTracker

def withEvents (stateEvent diffEvent : String) : PresenceTracker :=
  ⟨∅, none, [], stateEvent, diffEvent⟩

def new : PresenceTracker := withEvents "presence_state" "presence_diff"

def reset (t : PresenceTracker) : PresenceTracker :=
  { t with state := ∅, joinRef := none, pendingDiffs := [] }

/-- Applies the queued diffs on top of a full state, gathering their changes. -/
def replay : PresenceState → PresenceDiff → List PresenceDiff →
    Except PresenceError PresenceDiff × PresenceState
  | state, changes, [] => (.ok changes, state)
  | state, changes, diff :: rest =>
    match syncDiff state diff with
    | (.error e, state) => (.error e, state)
    | (.ok diff, state) => replay state (changes.extend diff) rest

def applyState (t : PresenceTracker) (frame : Frame) (payload : Value) :
    Except PresenceError PresenceUpdate × PresenceTracker :=
  match PresenceState.fromValue payload with
  | .error e => (.error e, t)
  | .ok newState =>
    match syncState t.state newState with
    | (.error e, state) => (.error e, { t with state })
    | (.ok changes, state) =>
      match replay state changes t.pendingDiffs with
      | (.error e, state) => (.error e, { t with state, pendingDiffs := [] })
      | (.ok changes, state) =>
        (.ok (.synced changes), { t with state, pendingDiffs := [], joinRef := frame.joinRef })

/-- A diff is applied when its join reference is the one of the last full state; with
another one, or with none, it is queued. -/
def applyDiff (t : PresenceTracker) (frame : Frame) (payload : Value) :
    Except PresenceError PresenceUpdate × PresenceTracker :=
  match PresenceDiff.fromValue payload with
  | .error e => (.error e, t)
  | .ok diff =>
    if t.joinRef = none ∨ t.joinRef ≠ frame.joinRef then
      (.ok .pending, { t with pendingDiffs := t.pendingDiffs ++ [diff] })
    else
      match syncDiff t.state diff with
      | (.error e, state) => (.error e, { t with state })
      | (.ok changes, state) => (.ok (.synced changes), { t with state })

/-- Applies a frame. Where both events have one name, every frame of it is a full state. -/
def apply (t : PresenceTracker) (frame : Frame) :
    Except PresenceError PresenceUpdate × PresenceTracker :=
  if frame.event ≠ t.stateEvent ∧ frame.event ≠ t.diffEvent then (.ok .ignored, t)
  else
    match frame.payload.asJson with
    | none => (.error .binaryPayload, t)
    | some payload =>
      if frame.event = t.stateEvent then t.applyState frame payload
      else t.applyDiff frame payload

end PresenceTracker
end PhoenixChannel.Runtime
