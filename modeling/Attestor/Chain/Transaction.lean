import Attestor.Address
import Attestor.Chain.Header
import Attestor.Chain.Script

/-! Transactions and blocks. A transaction whose list of inputs is empty is read in the
form that carries witnesses; its name never covers them. -/

namespace Attestor

structure Input where
  source : Digest
  index : UInt32
  script : Bytes
  sequence : UInt32
  witness : List Bytes
  deriving DecidableEq

structure Output where
  value : UInt64
  script : Bytes
  deriving DecidableEq

structure Transaction where
  version : UInt32
  inputs : List Input
  outputs : List Output
  lockTime : UInt32
  deriving DecidableEq

namespace Input

def bytes (i : Input) : Bytes :=
  i.source.toList ++ Bytes.littleEndian 4 i.index.toNat ++ Chain.compact i.script.length ++
    i.script ++ Bytes.littleEndian 4 i.sequence.toNat

open Chain in
def reader : Reader Input := do
  let source ← Reader.octets 32
  let index ← Reader.u32
  let script ← Reader.sized
  let sequence ← Reader.u32
  pure ⟨source, index, script, sequence, []⟩

end Input

namespace Output

def bytes (o : Output) : Bytes :=
  Bytes.littleEndian 8 o.value.toNat ++ Chain.compact o.script.length ++ o.script

open Chain in
def reader : Reader Output := do
  let value ← Reader.u64
  let script ← Reader.sized
  pure ⟨value, script⟩

end Output

namespace Transaction

/-- The serialization without witnesses. -/
def bytes (t : Transaction) : Bytes :=
  Bytes.littleEndian 4 t.version.toNat ++
    Chain.compact t.inputs.length ++ t.inputs.flatMap Input.bytes ++
    Chain.compact t.outputs.length ++ t.outputs.flatMap Output.bytes ++
    Bytes.littleEndian 4 t.lockTime.toNat

def id (t : Transaction) : Digest := Hash.doubleSha256 t.bytes

/-- One witness for each input, in order. -/
def witnesses : List Input → Chain.Reader (List Input)
  | [] => pure []
  | i :: rest => do
    let witness ← Chain.Reader.list Chain.Reader.sized
    let rest ← witnesses rest
    pure ({ i with witness } :: rest)

open Chain in
/-- The rest of a transaction after the empty list that announces witnesses: a flag of one,
then inputs, outputs and witnesses. Inputs without a single witness are refused. -/
def withWitnesses (version : UInt32) : Reader Transaction := do
  let flag ← Reader.number 1
  if flag ≠ 1 then failure
  let inputs ← Reader.list Input.reader
  let outputs ← Reader.list Output.reader
  let inputs ← witnesses inputs
  if !inputs.isEmpty && inputs.all (·.witness.isEmpty) then failure
  let lockTime ← Reader.u32
  pure ⟨version, inputs, outputs, lockTime⟩

open Chain in
def reader : Reader Transaction := do
  let version ← Reader.u32
  let inputs ← Reader.list Input.reader
  if inputs.isEmpty then withWitnesses version
  else
    let outputs ← Reader.list Output.reader
    let lockTime ← Reader.u32
    pure ⟨version, inputs, outputs, lockTime⟩

def ofBytes (b : Bytes) : Except Chain.Error Transaction := reader.whole b

/-- The bytes that should be the key of the input: the second of exactly two pushes, or of
exactly two witness items when the script is empty. -/
def keyBytes? (i : Input) : Option Bytes :=
  if i.script.isEmpty then
    match i.witness with
    | [_, key] => some key
    | _ => none
  else
    match Script.pushes i.script with
    | some [_, key] => some key
    | _ => none

/-- The address of the key that signed the first input. -/
def signer? (t : Transaction) : Option Address := do
  let input ← t.inputs.head?
  let key ← PublicKey.ofBytes? (← keyBytes? input)
  pure (Address.ofKey key)

end Transaction

structure Block where
  header : Header
  transactions : List Transaction
  deriving DecidableEq

namespace Block

open Chain in
def reader : Reader Block := do
  let header ← Header.reader
  let transactions ← Reader.list Transaction.reader
  pure ⟨header, transactions⟩

def ofBytes (b : Bytes) : Except Chain.Error Block := reader.whole b

end Block

end Attestor
