import ThreeXNode.Xray.HotApply

namespace ThreeXNode.Xray

/-! ## Calls to the core -/

inductive Call where
  | addUser (tag name : String) (user : User)
  | removeUser (tag name : String)
  | addInbound (ib : InboundConfig)
  | delInbound (tag : String)

/-- `missing` is the answer where there is nothing to remove, or no handler to add a user to. -/
inductive Answer where
  | done
  | missing
  | failed
  deriving DecidableEq

def Call.removes : Call → Bool
  | .removeUser _ _ | .delInbound _ => true
  | .addUser _ _ _ | .addInbound _ => false

/-- With that answer the core is as the call wants it. -/
def Call.settled (call : Call) (answer : Answer) : Bool := answer = .done || answer = .missing && call.removes

def isError (_ : Call) (answer : Answer) : Bool := answer ≠ .done

/-- An error, but for the one that what is to be removed is not found. -/
def isOtherError (call : Call) (answer : Answer) : Bool := !call.settled answer

/-- An error, but for those of a deletion of an inbound. -/
def isErrorOfAddition (call : Call) (answer : Answer) : Bool :=
  match call with
  | .delInbound _ => false
  | _ => isError call answer

/-! ## What the edits of local inbounds do after their commit -/

/-- The calls in turn, the answers that ask for a restart, and whether the edit asks for one in any case. -/
structure Pass where
  calls : List Call := []
  asks : Call → Answer → Bool := isOtherError
  needRestart : Bool := false

/-- A client as an edit hands it to the core. -/
structure Handed where
  email : String
  enable : Bool
  user : User

section
variable (fold : String → String) (push : Bool)

def removeUsers (tag : String) (emails : List String) : List Call := emails.map fun email => .removeUser tag (fold email)

def addUsers (tag : String) (clients : List Handed) : List Call :=
  clients.map fun client => .addUser tag (fold client.email) client.user

namespace InboundService

def addInbound (enable : Bool) (inbound : InboundConfig) : Pass where
  calls := if enable && push then [.addInbound inbound] else []
  asks := isError

def delInbound (enable routingChanged : Bool) (tag : String) : Pass where
  calls := if enable && push then [.delInbound tag] else []
  asks := isError
  needRestart := enable && !push || routingChanged

/-- `runtimeInbound` is `none` where it cannot be built. -/
def setInboundEnable (enable : Bool) (tag : String) (runtimeInbound : Option InboundConfig) : Pass where
  calls := if push then .delInbound tag :: if enable then (runtimeInbound.map Call.addInbound).toList else [] else []
  needRestart := !push || enable && runtimeInbound.isNone

/-- That the old inbound could not be deleted is not even logged. -/
def updateInbound (enable routingChanged : Bool) (tag : String) (runtimeInbound : Option InboundConfig) : Pass where
  calls := if push then .delInbound tag :: if enable then (runtimeInbound.map Call.addInbound).toList else [] else []
  asks := isErrorOfAddition
  needRestart := !push || enable && runtimeInbound.isNone || routingChanged

/-- An inbound of the core becomes one of the MTProto sidecar (`old`), or the other way (`new`). -/
def updateMtprotoInbound (pushable routes : Bool) (old : Option String) (new : Option InboundConfig) : Pass where
  calls := if push && pushable then (old.map Call.delInbound).toList ++ (new.map Call.addInbound).toList else []
  asks := isErrorOfAddition
  needRestart := !push || routes

/-- Errors are only logged. -/
def delDepletedClients (tags : List String) : Pass where
  calls := if push then tags.map Call.delInbound else []
  asks _ _ := false

def applyTrafficMutationBatch (localPlans : List Call) : Pass where
  calls := if push then localPlans else []
  needRestart := !push && !localPlans.isEmpty

def resetClientTrafficLocked (tag : String) (reenabled : Handed) : Pass where
  calls := if push then addUsers fold tag [reenabled] else []
  asks := isError
  needRestart := !push

end InboundService

namespace ClientService

def addInboundClient (tag : String) (clients : List Handed) : Pass where
  calls := if push then addUsers fold tag (clients.filter fun client => client.email ≠ "" && client.enable) else []
  asks := isError
  needRestart := !push || clients.any (·.email = "")

def updateInboundClient (tag oldEmail : String) (wasEnable : Bool) (client : Handed) : Pass where
  calls :=
    if oldEmail ≠ "" && push then
      (if wasEnable then removeUsers fold tag [oldEmail] else []) ++ (if client.enable then addUsers fold tag [client] else [])
    else []
  needRestart := oldEmail = "" || !push

def delInboundClientByEmail (needApiDel : Bool) (tag email : String) : Pass where
  calls := if email ≠ "" && needApiDel && push then removeUsers fold tag [email] else []
  needRestart := email ≠ "" && needApiDel && !push

/-- The emails are those of clients that are enabled and not depleted. -/
def delInboundClients (tag : String) (emails : List String) : Pass where
  calls := if push then removeUsers fold tag (emails.filter (· ≠ "")) else []
  needRestart := !push && emails.any (· ≠ "")

def bulkDelInboundClients (tag : String) (emails : List String) : Pass where
  calls := if push then removeUsers fold tag emails else []
  needRestart := !push

def bulkSetEnableInboundClients (enable : Bool) (tag : String) (changed : List (Handed × Bool)) : Pass where
  calls :=
    if !push then []
    else if enable then addUsers fold tag (changed.map (·.1))
    else removeUsers fold tag ((changed.filter (·.2)).map (·.1.email))
  needRestart := !push

def bulkAdjustInboundClients (flowChanged : Bool) : Pass where
  needRestart := flowChanged

end ClientService

inductive Edit where
  | addInbound (push enable : Bool) (inbound : InboundConfig)
  | delInbound (push enable routingChanged : Bool) (tag : String)
  | setInboundEnable (push enable : Bool) (tag : String) (runtimeInbound : Option InboundConfig)
  | updateInbound (push enable routingChanged : Bool) (tag : String) (runtimeInbound : Option InboundConfig)
  | updateMtprotoInbound (push pushable routes : Bool) (old : Option String) (new : Option InboundConfig)
  | delDepletedClients (push : Bool) (tags : List String)
  | applyTrafficMutationBatch (push : Bool) (localPlans : List Call)
  | resetClientTrafficLocked (push : Bool) (tag : String) (reenabled : Handed)
  | addInboundClient (push : Bool) (tag : String) (clients : List Handed)
  | updateInboundClient (push : Bool) (tag oldEmail : String) (wasEnable : Bool) (client : Handed)
  | delInboundClientByEmail (push needApiDel : Bool) (tag email : String)
  | delInboundClients (push : Bool) (tag : String) (emails : List String)
  | bulkDelInboundClients (push : Bool) (tag : String) (emails : List String)
  | bulkSetEnableInboundClients (push enable : Bool) (tag : String) (changed : List (Handed × Bool))
  | bulkAdjustInboundClients (flowChanged : Bool)
  /-- An inbound that a sidecar serves: the core is not called. -/
  | sidecar (needRestart : Bool)

def Edit.pass : Edit → Pass
  | .addInbound push enable inbound => InboundService.addInbound push enable inbound
  | .delInbound push enable routingChanged tag => InboundService.delInbound push enable routingChanged tag
  | .setInboundEnable push enable tag runtimeInbound => InboundService.setInboundEnable push enable tag runtimeInbound
  | .updateInbound push enable routingChanged tag runtimeInbound =>
      InboundService.updateInbound push enable routingChanged tag runtimeInbound
  | .updateMtprotoInbound push pushable routes old new => InboundService.updateMtprotoInbound push pushable routes old new
  | .delDepletedClients push tags => InboundService.delDepletedClients push tags
  | .applyTrafficMutationBatch push localPlans => InboundService.applyTrafficMutationBatch push localPlans
  | .resetClientTrafficLocked push tag reenabled => InboundService.resetClientTrafficLocked fold push tag reenabled
  | .addInboundClient push tag clients => ClientService.addInboundClient fold push tag clients
  | .updateInboundClient push tag oldEmail wasEnable client =>
      ClientService.updateInboundClient fold push tag oldEmail wasEnable client
  | .delInboundClientByEmail push needApiDel tag email => ClientService.delInboundClientByEmail fold push needApiDel tag email
  | .delInboundClients push tag emails => ClientService.delInboundClients fold push tag emails
  | .bulkDelInboundClients push tag emails => ClientService.bulkDelInboundClients fold push tag emails
  | .bulkSetEnableInboundClients push enable tag changed =>
      ClientService.bulkSetEnableInboundClients fold push enable tag changed
  | .bulkAdjustInboundClients flowChanged => ClientService.bulkAdjustInboundClients flowChanged
  | .sidecar needRestart => { needRestart }

end

def Edit.overlooks : Edit → Bool
  | .updateInbound _ _ _ _ _ | .updateMtprotoInbound _ _ _ _ _ | .delDepletedClients _ _ => true
  | _ => false

/-! ## Requests -/

/-- An edit with the answers to its calls. What it asks for is dropped where the caller looks at the error of another
edit, or of a later statement, first and returns. -/
structure Run where
  edit : Edit
  answers : List Answer
  dropped : Bool := false

section
variable (fold : String → String)

def Run.calls (run : Run) : List (Call × Answer) := (run.edit.pass fold).calls.zip run.answers

def Run.needRestart (run : Run) : Bool :=
  (run.edit.pass fold).needRestart || (run.calls fold).any fun call => (run.edit.pass fold).asks call.1 call.2

def Run.asks (run : Run) : Bool := !run.dropped && run.needRestart fold

def Run.answered (run : Run) : Bool := run.answers.length = (run.edit.pass fold).calls.length

def Run.overlooks (run : Run) : Bool := run.dropped || run.edit.overlooks

/-- Every error of an edit that overlooks none sets the flag. -/
theorem Edit.asks_of_unsettled {edit : Edit} (strict : edit.overlooks = false) {call : Call} {answer : Answer}
    (unsettled : call.settled answer = false) : (edit.pass fold).asks call answer = true := by
  have other : isOtherError call answer = true := by simp [isOtherError, unsettled]
  have error : isError call answer = true := by
    cases answer with
    | done => cases unsettled
    | missing | failed => rfl
  cases edit with
  | updateInbound | updateMtprotoInbound | delDepletedClients => cases strict
  | addInbound | delInbound | resetClientTrafficLocked | addInboundClient => exact error
  | setInboundEnable | applyTrafficMutationBatch | updateInboundClient | delInboundClientByEmail | delInboundClients
    | bulkDelInboundClients | bulkSetEnableInboundClients | bulkAdjustInboundClients | sidecar => exact other

theorem Run.settled_of_quiet {run : Run} (strict : run.overlooks = false) (quiet : run.asks fold = false) :
    ∀ call ∈ run.calls fold, call.1.settled call.2 = true := by
  intro call mem
  obtain ⟨kept, strict⟩ := Bool.or_eq_false_iff.mp strict
  by_contra unsettled
  rw [Bool.not_eq_true] at unsettled
  have asks := Edit.asks_of_unsettled fold strict unsettled
  have some : run.needRestart fold = true := by
    simp only [Run.needRestart, Bool.or_eq_true, List.any_eq_true]
    exact .inr ⟨call, mem, asks⟩
  simp [Run.asks, kept, some] at quiet

end

end ThreeXNode.Xray
