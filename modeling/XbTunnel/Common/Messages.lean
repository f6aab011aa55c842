import Mathlib.Data.List.Basic

/-! The types that daemon and server share: console addresses, identifiers and messages. -/

namespace XbTunnel.Common

abbrev Bytes := List UInt8

structure Xbox where
  octets : Bytes
  length_eq : octets.length = 6
deriving DecidableEq

def newXbox (mac : Bytes) : Xbox :=
  ⟨(mac ++ List.replicate 6 0).take 6, by simp⟩

namespace Xbox

def asSlice (x : Xbox) : Bytes := x.octets

def isBroadcast (x : Xbox) : Bool := decide (x.octets = List.replicate 6 0xFF)

@[simp] lemma asSlice_length (x : Xbox) : x.asSlice.length = 6 := x.length_eq

@[ext] lemma ext {x y : Xbox} (h : x.asSlice = y.asSlice) : x = y := by
  cases x
  cases y
  congr

end Xbox

lemma newXbox_asSlice {mac : Bytes} (h : mac.length = 6) : (newXbox mac).asSlice = mac := by
  simp [newXbox, Xbox.asSlice, ← h]

@[simp] lemma newXbox_of_asSlice (x : Xbox) : newXbox x.asSlice = x :=
  Xbox.ext (newXbox_asSlice x.asSlice_length)

def broadcast : Xbox := newXbox [0xFF, 0xFF, 0xFF, 0xFF, 0xFF, 0xFF]

lemma Xbox.isBroadcast_iff (x : Xbox) : x.isBroadcast = true ↔ x = broadcast := by
  rw [isBroadcast, decide_eq_true_eq, Xbox.ext_iff]
  rfl

abbrev ObjectId := Bytes

structure PeerId where
  oid : ObjectId
deriving DecidableEq

structure RoomId where
  oid : ObjectId
deriving DecidableEq

def emptyPeerId : PeerId := ⟨[]⟩

instance : LT PeerId := ⟨fun a b => a.oid < b.oid⟩

instance (a b : PeerId) : Decidable (a < b) := inferInstanceAs (Decidable (a.oid < b.oid))

structure Token where
  text : Bytes
deriving DecidableEq

structure User where
  id : PeerId
  nickname : Bytes
  password : Bytes
  token : Token
deriving DecidableEq

structure Room where
  id : RoomId
  name : String
  description : String
deriving DecidableEq

structure Peer where
  id : PeerId
  xboxes : List Xbox
  connected : Bool
deriving DecidableEq

/-- The shape `StateManager.run` documents; `none` is the nil slice. -/
structure LocalState where
  userId : PeerId
  curRoomId : RoomId
  peers : Option (List Peer)
  xboxes : List Xbox
deriving DecidableEq

def LocalState.zero : LocalState := ⟨emptyPeerId, ⟨[]⟩, none, []⟩

structure PcSignal where
  fromId : PeerId
  toId : PeerId
  payload : Bytes
deriving DecidableEq

structure ServerReq where
  token : Option Token := none
  xboxes : Option (List Xbox) := none
  pcSignal : Option PcSignal := none
  localState : Option LocalState := none
deriving DecidableEq

end XbTunnel.Common
