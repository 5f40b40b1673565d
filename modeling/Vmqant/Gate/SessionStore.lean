import Mathlib

/-!
# The session store

What the gate handler is for, without agents, pointers and the storage handler: a map from session
ids to a user id and settings. An operation changes the session it names and no other. The record
that `bind` takes is what is stored for the user, when that can be queried and decoded.
-/

namespace Vmqant.BaseGate

/-- The part of a session that the store keeps. -/
@[ext]
structure View where
  userId : String
  settings : String → Option String

/-- The connected sessions. -/
abbrev Store := String → Option View

/-- The operations. -/
inductive StoreOp where
  | connect (sessionid : String) (session : View)
  | disConnect (sessionid : String)
  | bind (sessionid userid : String) (record : Option (String → Option String))
  | unBind (sessionid : String)
  | push (sessionid : String) (settings : String → Option String)
  | set (sessionid key value : String)
  | remove (sessionid key : String)
  /-- An agent without a session connects or disconnects. -/
  | skip

namespace View

/-- The user id is set, and the keys of the record that are missing are added. -/
def bind (v : View) (userid : String) (record : Option (String → Option String)) : View where
  userId := userid
  settings key := (v.settings key).or (record.bind (· key))

def unBind (v : View) : View := { v with userId := "" }

/-- The given keys are overwritten. -/
def push (v : View) (settings : String → Option String) : View :=
  { v with settings := fun key => (settings key).or (v.settings key) }

def set (v : View) (key value : String) : View :=
  { v with settings := Function.update v.settings key (some value) }

def remove (v : View) (key : String) : View :=
  { v with settings := Function.update v.settings key none }

end View

namespace Store

/-- No session is connected. -/
def empty : Store := fun _ => none

/-- Change the session with an id, if there is one. -/
def modify (st : Store) (sessionid : String) (f : View → View) : Store :=
  Function.update st sessionid ((st sessionid).map f)

def step (st : Store) : StoreOp → Store
  | .connect sessionid session => Function.update st sessionid (some session)
  | .disConnect sessionid => Function.update st sessionid none
  | .bind sessionid userid record => st.modify sessionid (·.bind userid record)
  | .unBind sessionid => st.modify sessionid View.unBind
  | .push sessionid settings => st.modify sessionid (·.push settings)
  | .set sessionid key value => st.modify sessionid (·.set key value)
  | .remove sessionid key => st.modify sessionid (·.remove key)
  | .skip => st

/-- The store after the operations. -/
def run (st : Store) (ops : List StoreOp) : Store := ops.foldl step st

end Store

end Vmqant.BaseGate
