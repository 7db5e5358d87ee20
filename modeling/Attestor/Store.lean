import Attestor.Entity
import Attestor.Error
import Attestor.Key.Extended
import Attestor.UserId

/-! The store of registered users and of the key sets that are filed for them. A deleted
user is not found any more, nor are that user's key sets; a key set is filed only once,
for whichever user. Users and key sets keep the time at which they were made, and users also
the time at which their entity was set. -/

namespace Attestor

/-- A moment by a clock, which may be set to one before 1970. -/
structure Time where
  /-- Since the beginning of 1970. -/
  nanoseconds : Int
  deriving DecidableEq, Inhabited

/-- The nanoseconds since 1970 as 64 bits: zero before 1970, and zero as well once they no longer
fit a signed number of that size. -/
def Time.stamp (t : Time) : UInt64 :=
  if t.nanoseconds.toNat < UInt64.size / 2 then .ofNat t.nanoseconds.toNat else 0

structure User where
  id : UserId
  /-- The JSON text of the entity. -/
  entity : Bytes
  publicKey : PublicKey
  created : Time
  modified : Time
  approved : Bool
  deleted : Bool
  deriving DecidableEq

namespace User

/-- A user as registered. -/
def new (id : UserId) (entity : Entity) (publicKey : PublicKey) (now : Time) : User :=
  ⟨id, entity.bytes, publicKey, now, now, true, false⟩

/-- The registered entity, if the stored text can still be read. -/
def registered (u : User) : Except Error Entity :=
  (Entity.ofBytes u.entity).mapError fun _ => .malformed .storedEntity ""

/-- The user with another entity from now on. -/
def setEntity (u : User) (entity : Entity) (now : Time) : User :=
  { u with entity := entity.bytes, modified := now }

end User

/-- A key set that is filed for a user, of which so many keys must sign. -/
structure FiledKeys where
  id : Octets 16
  user : UserId
  keys : KeySet
  required : UInt32
  created : Time
  deriving DecidableEq

/-- At most one user for each identifier, at most one key set for each stored form. -/
structure Store where
  users : List User
  filed : List FiledKeys
  deriving DecidableEq, Inhabited

namespace Store

def empty : Store := ⟨[], []⟩

def user? (s : Store) (id : UserId) : Option User := s.users.find? (·.id = id)

/-- The user, unless deleted. -/
def live? (s : Store) (id : UserId) : Option User := (s.user? id).filter (!·.deleted)

/-- The key set as it is filed, whoever owns it. -/
def filed? (s : Store) (keys : KeySet) : Option FiledKeys :=
  s.filed.find? (·.keys.bytes = keys.bytes)

def findUser (s : Store) (id : UserId) : Except Error User :=
  match s.live? id with
  | some u => .ok u
  | none => .error (.notFound .user (UserId.text id))

/-- The user for whom a key set is filed. -/
def findOwner (s : Store) (keys : KeySet) : Except Error User :=
  match (s.filed? keys).bind fun f => s.live? f.user with
  | some u => .ok u
  | none => .error (.notFound .user keys.text)

def findKeys (s : Store) (keys : KeySet) : Except Error FiledKeys :=
  match (s.filed? keys).filter fun f => (s.live? f.user).isSome with
  | some f => .ok f
  | none => .error (.notFound .keySet keys.text)

/-- Puts a user in the place of the one with the same identifier, or at the end. -/
def put (u : User) : List User → List User
  | [] => [u]
  | v :: rest => if v.id = u.id then u :: rest else v :: put u rest

def createUser (s : Store) (u : User) : Store := { s with users := put u s.users }

/-- Takes over the entity of a user who is not deleted, and the time at which it was set. -/
def updateUser (s : Store) (u : User) : Except Error Store :=
  match s.live? u.id with
  | some v => .ok (s.createUser { v with entity := u.entity, modified := u.modified })
  | none => .error (.notFound .user (UserId.text u.id))

def fileKeys (s : Store) (f : FiledKeys) : Except Error Store :=
  if (s.filed? f.keys).isSome then .error .keySetExists else .ok { s with filed := s.filed ++ [f] }

/-- Marks a user as deleted. -/
def delete (s : Store) (id : UserId) : Store :=
  match s.user? id with
  | some u => s.createUser { u with deleted := true }
  | none => s

/-- What a store is asked. -/
inductive Question where
  | findUser (id : UserId)
  | findOwner (keys : KeySet)
  | findKeys (keys : KeySet)
  | createUser (u : User)
  | updateUser (u : User)
  | fileKeys (f : FiledKeys)
  deriving DecidableEq

abbrev Question.Answer : Question → Type
  | findUser _ | findOwner _ => Except Error User
  | findKeys _ => Except Error FiledKeys
  | createUser _ | updateUser _ | fileKeys _ => Except Error Unit

/-- The outcome of a change: the new store, or the error and the store as it was. -/
def changed (s : Store) : Except Error Store → Except Error Unit × Store
  | .ok s' => (.ok (), s')
  | .error e => (.error e, s)

/-- Answers one question; every question is one step. -/
def answer : (q : Question) → StateM Store q.Answer
  | .findUser id, s => (s.findUser id, s)
  | .findOwner keys, s => (s.findOwner keys, s)
  | .findKeys keys, s => (s.findKeys keys, s)
  | .createUser u, s => (.ok (), s.createUser u)
  | .updateUser u, s => s.changed (s.updateUser u)
  | .fileKeys f, s => s.changed (s.fileKeys f)

end Store

end Attestor
