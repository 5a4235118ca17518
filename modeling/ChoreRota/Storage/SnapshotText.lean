import ChoreRota.Storage.Encoder

/-!
# Snapshots as text

A snapshot is stored as one JSON text. What is loaded has a known version and lists no assignee
twice.
-/

namespace ChoreRota

inductive StorageFault where
  | unreadable (fault : Json.DecodeFault)
  | versionMismatch
  | duplicateAssignee (user : UserId)
  | unwritable (fault : EncodeFault)

def StorageFault.message : StorageFault → String
  | .unreadable fault => fault.message
  | .versionMismatch => "schema_version mismatch"
  | .duplicateAssignee user => "duplicate assignee: " ++ toString user.toInt
  | .unwritable fault => fault.message

def firstRepeated (seen : List UserId) : List UserId → Option UserId
  | [] => none
  | user :: rest => if seen.contains user then some user else firstRepeated (user :: seen) rest

namespace Snapshot

def version : Nat := 1

def load (text : String) : Except StorageFault Snapshot :=
  match Json.decodeText StoredSnapshot.reading text with
  | .error fault => .error (.unreadable fault)
  | .ok stored =>
    if stored.version ≠ version then .error .versionMismatch
    else
      match firstRepeated [] stored.snapshot.chore.assignees with
      | some user => .error (.duplicateAssignee user)
      | none => .ok stored.snapshot

def save (snapshot : Snapshot) : Except StorageFault String :=
  match StoredSnapshot.toJson ⟨version, snapshot⟩ with
  | .ok json => .ok json.pretty
  | .error fault => .error (.unwritable fault)

end Snapshot

end ChoreRota
