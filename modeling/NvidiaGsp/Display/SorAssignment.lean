import NvidiaGsp.Gsp.Message

/-!
# Display.SorAssignment

The assignment of a serial output resource to one external display (`gsp_sor_assignment.zig`): the
request, its control message, and which replies authorise a route.
-/

namespace NvidiaGsp
namespace Display
namespace Sor

open Bytes

inductive Error where
  | Handle | Descriptor | Binding | Unexpected | Payload
  deriving DecidableEq, Repr

inductive Operation where
  | caps | assign
  deriving DecidableEq, Repr

structure Object where
  epoch : Nat
  client : Word
  display : Word

/-- `Request`: the display to route, and the displays other heads own, by their output. -/
structure Request where
  object : Object
  displayId : Word
  protectedIds : Fin 4 → Word := fun _ => 0
  fixedSor : Option (Fin 4) := none

def rpcFunction : Word := 76
def maxBytes : Nat := 104

/-- The bit of one output. -/
def sorBit (index : Fin 4) : Byte := 1 <<< index.val

def Request.excluded (r : Request) : Byte :=
  (List.finRange 4).foldl
    (fun bits index => if r.protectedIds index ≠ 0 then bits ||| sorBit index else bits)
    (match r.fixedSor with
     | some index => ~~~ sorBit index
     | none => 0)

def oneBit (value : Word) : Bool := value != 0 && value &&& (value - 1) == 0

/-- The protected displays are single bits, each its own. -/
def distinct : List Word → Word → Except Error Unit
  | [], _ => .ok ()
  | id :: rest, seen =>
    if id ≠ 0 then
      if ¬ oneBit id ∨ id &&& seen ≠ 0 then .error .Descriptor else distinct rest (seen ||| id)
    else distinct rest seen

def Request.validate (r : Request) : Except Error Unit :=
  if r.object.epoch = 0 ∨ r.object.client = 0 ∨ r.object.display = 0 then .error .Handle
  else if ¬ oneBit r.displayId then .error .Descriptor
  else if r.fixedSor.any (fun index => r.protectedIds index ≠ 0) then .error .Binding
  else distinct ((List.finRange 4).map r.protectedIds) r.displayId

structure Assignment where
  sor : Word
  displays : Fin 4 → Word
  kinds : Fin 4 → Word
  reserved : Byte
  flags : Word

inductive Reply where
  | caps (first second : Byte)
  | assigned (assignment : Assignment)
  | rejected (status : Word) (rpc : Bool)

def command : Operation → Word
  | .caps => 0x730101
  | .assign => 0x731152

def paramsSize : Operation → Nat
  | .caps => 2
  | .assign => 80

/-- `encode`: the message, in its buffer of `maxBytes`, and its length. -/
def encode (request : Request) (operation : Operation) : Except Error (List Byte × Nat) := do
  request.validate
  let header := putAll (List.replicate maxBytes 0)
    [(0, request.object.client), (4, request.object.display), (8, command operation),
      (16, BitVec.ofNat 32 (paramsSize operation))]
  let output := match operation with
    | .caps => header
    | .assign => blit (put header 28 request.displayId) 32 [request.excluded]
  return (output, 24 + paramsSize operation)

/-- The outputs' displays, by the second of the two maps of a reply. -/
def mask (params : List Byte) (index : Fin 4) : Word := word params (40 + index.val * 8)
def kind (params : List Byte) (index : Fin 4) : Word := word params (44 + index.val * 8)

/-- No output is assigned yet. -/
def unassigned : Word := 0xffffffff

/-- What the reply says of one output. -/
def consider (request : Request) (params : List Byte) (result : Assignment) (index : Fin 4) :
    Except Error Assignment :=
  let mask := mask params index
  let kind := kind params index
  if word params (24 + index.val * 4) ≠ mask ∨ kind > 3 ∨ ¬ (mask = 0 ↔ kind = 0) then
    .error .Payload
  else if request.protectedIds index ≠ 0 ∧
      (mask &&& request.protectedIds index = 0 ∨ kind ≠ 1) then .error .Binding
  else if ∃ other, other ≠ index ∧ mask &&& request.protectedIds other ≠ 0 then .error .Binding
  else
    let result := { result with
      displays := Function.update result.displays index mask
      kinds := Function.update result.kinds index kind }
    if mask &&& request.displayId ≠ 0 then
      if result.sor ≠ unassigned ∨ kind ≠ 1 ∨
          (request.excluded ||| result.reserved) &&& sorBit index ≠ 0 then .error .Binding
      else .ok { result with sor := BitVec.ofNat 32 index.val }
    else .ok result

def considerAll (request : Request) (params : List Byte) :
    List (Fin 4) → Assignment → Except Error Assignment
  | [], result => .ok result
  | index :: rest, result =>
    match consider request params result index with
    | .error e => .error e
    | .ok result => considerAll request params rest result

/-- What of a reply's parameters must repeat the request, or be zero. -/
def repeats (request : Request) (params : List Byte) : Prop :=
  word params 0 = 0 ∧ word params 4 = request.displayId ∧ params.getD 8 0 = request.excluded ∧
    word params 12 = 0 ∧ word params 16 = 0 ∧ params.getD 20 0 = 0 ∧
    params.getD 72 0 &&& ~~~ 15 = 0 ∧ word params 76 &&& ~~~ 2 = 0

instance {request : Request} {params : List Byte} : Decidable (repeats request params) := by
  unfold repeats
  infer_instance

/-- The header of a reply belongs to the request. -/
def answers (request : Request) (operation : Operation) (bytes : List Byte) : Prop :=
  bytes.length = 24 + paramsSize operation ∧ word bytes 0 = request.object.client ∧
    word bytes 4 = request.object.display ∧ word bytes 8 = command operation ∧
    word bytes 16 = BitVec.ofNat 32 (paramsSize operation) ∧ word bytes 20 = 0

instance {request : Request} {operation : Operation} {bytes : List Byte} :
    Decidable (answers request operation bytes) := by
  unfold answers
  infer_instance

/-- The result before the first output is considered. -/
def fresh (params : List Byte) : Assignment where
  sor := unassigned
  displays := fun _ => 0
  kinds := fun _ => 0
  reserved := params.getD 72 0
  flags := word params 76

def decodeAssign (request : Request) (params : List Byte) : Except Error Reply :=
  if ¬ repeats request params then .error .Payload
  else
    match considerAll request params (List.finRange 4) (fresh params) with
    | .error e => .error e
    | .ok result =>
      if result.sor = unassigned then .error .Binding else .ok (.assigned result)

def decode (request : Request) (operation : Operation) (record : Gsp.Record) :
    Except Error Reply := do
  request.validate
  if record.rpc.function ≠ rpcFunction ∨ record.rpc.cpuRmGfid ≠ 0 then .error .Unexpected
  else if record.rpc.result = 0xffffffff then .error .Payload
  else if record.rpc.result ≠ 0 then .ok (.rejected record.rpc.result true)
  else if ¬ answers request operation record.payload then .error .Unexpected
  else if word record.payload 12 ≠ 0 then .ok (.rejected (word record.payload 12) false)
  else
    let params := record.payload.drop 24
    match operation with
    | .caps => .ok (.caps (params.getD 0 0) (params.getD 1 0))
    | .assign => decodeAssign request params

end Sor
end Display
end NvidiaGsp
