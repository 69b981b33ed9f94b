import Kafkaman.Core.Basic

/-!
# Core.Error — the storage crate's errors, their texts and their failure class

Only the variants that enqueue, ingest and dispatch can raise.  `Error.display` is the text that
lands in a failure record, and `Error.failureKind` is the single coarsening from the telemetry
vocabulary onto the four classes a row stores.
-/

namespace Kafkaman

/-- `kafkaman_sqlx::Error`, restricted to the storage and dispatch paths.  The database error and
the serialization error carry the text of the library error they wrap. -/
inductive Error where
  | sqlx (text : String)
  | serde (text : String)
  | unknownMessageType (messageType : String)
  | reservedHeader (key : String)
  | missingIdempotencyKey
  | applicationPanicked (messageType operation message : String)
  | invalidEntityKey (messageType : String)
  | missingEntityKey (messageId : Uuid) (messageType : String)
  | cacheOriginMismatch (entityKey appliedTopic : String) (appliedPartition : Int)
      (incomingTopic : String) (incomingPartition : Int)
  | missingHandler (messageType : String)
  | handler (text : String)
  | handlerPanicked (message : String)
  deriving DecidableEq

/-- Telemetry problem types, one per URI the paths modelled here export. -/
inductive ProblemType
  | infrastructure
  | invalidPayload
  | messageRouting
  | idempotency
  | applicationPanicked
  | cacheInvariant
  | missingHandler
  | handler
  | handlerPanicked
  deriving DecidableEq, Repr

/-- `problem_type`.  The refinements of a database error (constraint, contention, statement) all
coarsen to `infrastructure`, so they are one value here. -/
def Error.problemType : Error → ProblemType
  | .sqlx _ => .infrastructure
  | .serde _ => .invalidPayload
  | .unknownMessageType _ | .reservedHeader _ => .messageRouting
  | .missingIdempotencyKey => .idempotency
  | .applicationPanicked _ _ _ => .applicationPanicked
  | .invalidEntityKey _ | .missingEntityKey _ _ | .cacheOriginMismatch _ _ _ _ _ => .cacheInvariant
  | .missingHandler _ => .missingHandler
  | .handler _ => .handler
  | .handlerPanicked _ => .handlerPanicked

/-- `ReceivedFailureKind::coarsening`. -/
def ReceivedFailureKind.coarsening : ProblemType → ReceivedFailureKind
  | .missingHandler => .missingHandler
  | .invalidPayload => .invalidPayload
  | .handler | .handlerPanicked => .handler
  | .infrastructure | .applicationPanicked | .messageRouting | .cacheInvariant | .idempotency =>
      .infrastructure

def Error.failureKind (e : Error) : ReceivedFailureKind :=
  ReceivedFailureKind.coarsening e.problemType

/-- The `Display` text of an error; `renderUuid` is the hyphenated rendering of a `Uuid`. -/
def Error.display (renderUuid : Uuid → String) : Error → String
  | .sqlx text | .serde text => text
  | .unknownMessageType t => "message descriptor `" ++ t ++ "` is not configured"
  | .reservedHeader key =>
      "envelope header `" ++ key ++ "` is in the reserved `kafkaman-` namespace"
  | .missingIdempotencyKey => "received message must include an idempotency key"
  | .applicationPanicked t operation message =>
      "application code panicked preparing message `" ++ t ++ "` (" ++ operation ++ "): " ++ message
  | .invalidEntityKey t => "entity key for message type `" ++ t ++ "` is not valid UTF-8"
  | .missingEntityKey id t =>
      "received row `" ++ renderUuid id ++ "` for message type `" ++ t ++
        "` has no resolvable entity key"
  | .cacheOriginMismatch entity topic partition incomingTopic incomingPartition =>
      "cache row for entity `" ++ entity ++ "` was applied from " ++ topic ++ ":" ++
        toString partition ++ " but this record arrived on " ++ incomingTopic ++ ":" ++
        toString incomingPartition ++
        "; stored offsets are not comparable across a topic or partition change and the cache " ++
        "must be re-bootstrapped"
  | .missingHandler t => "no handler registered for message type `" ++ t ++ "`"
  | .handler text => "handler failed: " ++ text
  | .handlerPanicked message => "handler panicked: " ++ message

end Kafkaman
