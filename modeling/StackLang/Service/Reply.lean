import StackLang.Fault
import StackLang.Service.Complaint

/-!
# Replies

A reply has a status and a body, which is a JSON document or a text. Faults with a kind become
replies whose status tells whose fault it is: the program's, the toolchain's, or the settings'.
Faults without a kind become a plain server error, and the reply keeps what was raised. The same
becomes of a reply whose body cannot be sent.

## Main definitions

* `Service.Reply`: a reply
* `Fault.status`: the status for a fault
* `Service.Reply.send`: a reply with a body that may be impossible to send
* `Service.Reply.ofFault`: the reply for a fault
* `Service.Reply.ofComplaints`: the reply to a body with complaints
-/

namespace StackLang

/-- The status for a fault. Faults of the program, of linking and of running are the caller's. -/
def Fault.status : Fault → Nat
  | .link _ => 422
  | .trap _ => 422
  | .tool _ => 502
  | .artifact .. => 502
  | f => if f.isProgramFault then 422 else 500

namespace Service

/-- What a reply carries. -/
inductive Body
  | json (value : Json)
  | text (text : String)

/-- A reply; `raised` is the fault that nobody handled. -/
structure Reply where
  status : Nat
  body : Body
  raised : Option Fault := none

/-- A reply with only a detail. -/
def Reply.detail (status : Nat) (detail : String) : Reply :=
  ⟨status, .json (.obj [("detail", .str detail)]), none⟩

/-- The reply when a fault was not handled. -/
def Reply.crash (fault : Fault) : Reply :=
  ⟨500, .text "Internal Server Error", some fault⟩

/-- The reply with a body that repeats what was given. It cannot be sent when that holds a number
which is none, or half of a surrogate pair. -/
def Reply.send (status : Nat) (body : Json) : Reply :=
  if !body.isWritable then .crash .unwritable
  else if !body.isSendable then .crash .unsendable
  else ⟨status, .json body, none⟩

/-- What the reply for a fault says. -/
def faultBody (kind : String) (fault : Fault) : Json :=
  .obj [("detail", .str fault.wording), ("kind", .str kind),
    ("position", match fault.position? with
      | some n => .int n
      | none => .null)]

/-- The reply for a fault. -/
def Reply.ofFault (fault : Fault) : Reply :=
  match fault.kind? with
  | some kind => .send fault.status (faultBody kind fault)
  | none => .crash fault

/-- The reply to a body with complaints. -/
def Reply.ofComplaints (complaints : List Complaint) : Reply :=
  .send 422 (.obj [("detail", .arr (complaints.map Complaint.json))])

end Service

end StackLang
