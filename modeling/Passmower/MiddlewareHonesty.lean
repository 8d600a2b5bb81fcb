import Passmower.ReadyHonesty

/-! What the operator of middleware clients reports: a Ready condition that is true, the Traefik Middleware and the Redis record
at that moment. The events are handled one after another, any call may fail, and in between others may do to both what they
like. -/
namespace Passmower.ClientHandlers
open Resumption Program Encoding

/- The `forwardAuth` of a Traefik Middleware. -/
structure MiddlewareSpec where
  address : String
  trustForwardHeader : Bool
  authResponseHeaders : List String
  deriving DecidableEq, Repr

structure Deployment where
  deployment : String
  deploymentNamespace : String

def traefikMiddlewareForwardAuthAddress (place : Deployment) (clientId : String) : String :=
  s!"http://{place.deployment}.{place.deploymentNamespace}.svc.cluster.local/forward-auth?client={clientId}"

def Client.toMiddlewareSpec (client : Client) (place : Deployment) : MiddlewareSpec where
  address := traefikMiddlewareForwardAuthAddress place client.clientId
  trustForwardHeader := true
  authResponseHeaders := (client.spec.headerMapping.map Prod.snd).filter (· ≠ "")

structure MiddlewareReport where
  client : Client
  condition : ReadyCondition
  middleware : Option MiddlewareSpec
  record : Option ClientRecord

structure MiddlewareWorld where
  middleware : Option MiddlewareSpec := none
  record : Option ClientRecord := none
  fingerprint : Option (Nat × Option String) := none
  reports : List MiddlewareReport := []

namespace MiddlewareWorld
variable (place : Deployment) (s : MiddlewareWorld)

def carried : Effect → Bool × MiddlewareWorld
  | .createMiddleware client => match s.middleware with
      | some _ => (false,s)
      | none => (true,{s with middleware := some (client.toMiddlewareSpec place)})
  | .patchMiddleware client => match s.middleware with
      | some _ => (true,{s with middleware := some (client.toMiddlewareSpec place)})
      | none => (false,s)
  | .set _ record => (true,{s with record := some record})
  | .del _ => (true,{s with record := none})
  | .patchSecret _ _ _ | .createJob _ _ | .sadd _ | .srem _ => (true,s)

def told (client : Client) : Option ReadyCondition → MiddlewareWorld
  | none => s
  | some condition => {s with reports := s.reports ++ [⟨client,condition,s.middleware,s.record⟩]}

end MiddlewareWorld

/- A call that is refused does nothing, and one that is not answered has been carried out. A Middleware that could not be read
counts as one that is not there. -/
def answerMiddleware (own : String) (place : Deployment) : Handler operatorCalls Fate MiddlewareWorld := fun w c s => match c with
  | .getMiddleware _ => (w.outcome = .applied && s.middleware.isSome,s)
  | .attempt effect => match w.outcome with
      | .applied => s.carried place effect
      | .refused => (false,s)
      | .unanswered => (false,(s.carried place effect).2)
  | .replaceClientStatus client reported =>
      (if w.outcome = .applied then some (client.claimed own) else none,s.told client reported)
  | .find _ => (if w.outcome = .applied then some s.record else none,s)
  | .randomUUID => (w.uuid,s)
  | .isCurrent client => (s.fingerprint = some client.getReconcileFingerprint,s)
  | .register client => ((),{s with fingerprint := some client.getReconcileFingerprint})
  | .shouldReconcile client =>
      (s.fingerprint ≠ some client.getReconcileFingerprint,{s with fingerprint := some client.getReconcileFingerprint})
  | .unregister _ => ((),{s with fingerprint := none})
  | .getIngress _ _ => (none,s)
  | .getSecret _ => (none,s)
  | .createSecret _ _ => (.failed,s)
  | .createEvent _ _ _ | .delay => ((),s)

structure MiddlewareVersion (reference : Reference) where
  client : Client
  named : client.reference = reference
  kind : client.reference.clientKind = .oidcMiddlewareClient

inductive MiddlewareMove (reference : Reference) where
  | handle (type : EventType) (version : MiddlewareVersion reference) (fates : List Fate)
  | disturb (middleware : Option MiddlewareSpec) (record : Option ClientRecord)

section Reports
variable (settings : OperatorSettings) (place : Deployment)

def HasTargets (client : Client) (middleware : Option MiddlewareSpec) (record : Option ClientRecord) : Prop :=
  if client.isDisabled then record = none
  else middleware = some (client.toMiddlewareSpec place) ∧ ∃ uuid, record = some (client.toRedis settings (some uuid))

structure MiddlewareReport.Honest (report : MiddlewareReport) : Prop where
  reason : report.condition.status = true →
    report.condition.reason = if report.client.isDisabled then "Disabled" else "Reconciled"
  targets : report.condition.status = true → HasTargets settings place report.client report.middleware report.record

namespace MiddlewareWorld
variable {reference : Reference}

def handler (client : Client) : EventType → Handling Unit
  | .added => createOIDCMiddlewareClient settings client
  | .modified => updateOIDCMiddlewareClient settings client
  | .deleted => deleteOIDCClient settings client

def step (s : MiddlewareWorld) : MiddlewareMove reference → MiddlewareWorld
  | .handle type version fates => after (answerMiddleware settings.own place) (handler settings version.client type) fates s
  | .disturb middleware record => {s with middleware := middleware, record := record}

def run (moves : List (MiddlewareMove reference)) (start : MiddlewareWorld) : MiddlewareWorld :=
  moves.foldl (step settings place) start

end MiddlewareWorld
end Reports

section Handlers
variable {settings : OperatorSettings} {place : Deployment} {client : Client} {s t : MiddlewareWorld}

abbrev EndsWith {α : Type} (settings : OperatorSettings) (place : Deployment) (p : Handling α)
    (Q : Except HandlerError α → MiddlewareWorld → Prop) (s : MiddlewareWorld) : Prop :=
  Alone (answerMiddleware settings.own place) (fun _ _ => True) (fun _ _ => True) p Q s

theorem endsWithAsk {α : Type} {c : OperatorCall} {f : OperatorAnswer c → Handling α}
    {Q : Except HandlerError α → MiddlewareWorld → Prop}
    (rest : ∀ w, EndsWith settings place (f (answerMiddleware settings.own place w c s).1) Q
      (answerMiddleware settings.own place w c s).2) :
    EndsWith settings place (ask (I := operatorCalls) c >>= f) Q s :=
  (aloneAsk (I := operatorCalls) c f Q s).mpr fun _ w => ⟨trivial,rest w⟩

theorem mustEndsWith (effect : Effect) (error : HandlerError) : EndsWith settings place (must effect error)
    (fun r t => (t = s ∨ t = (s.carried place effect).2) ∧
      (r = .ok () → s.carried place effect = (true,t))) s := by
  refine endsWithAsk fun w => ?_
  unfold answerMiddleware
  cases w.outcome with
  | applied =>
      dsimp only
      split
      · rename_i done
        exact (alonePure _ _ _).mpr ⟨.inr rfl,fun _ => Prod.ext done rfl⟩
      · exact (aloneThrow _ _ _).mpr ⟨.inr rfl,fun never => by cases never⟩
  | refused => exact (aloneThrow _ _ _).mpr ⟨.inl rfl,fun never => by cases never⟩
  | unanswered => exact (aloneThrow _ _ _).mpr ⟨.inr rfl,fun never => by cases never⟩

theorem carriedReports (effect : Effect) : (s.carried place effect).2.reports = s.reports := by
  unfold MiddlewareWorld.carried
  cases effect with
  | createMiddleware client =>
      dsimp only
      split
      · rfl
      · rfl
  | patchMiddleware client =>
      dsimp only
      split
      · rfl
      · rfl
  | patchSecret reference existing data => rfl
  | createJob reference resourceVersion => rfl
  | set id record => rfl
  | sadd id => rfl
  | del id => rfl
  | srem id => rfl

theorem movedReports {effect : Effect} (moved : t = s ∨ t = (s.carried place effect).2) : t.reports = s.reports := by
  rcases moved with rfl | rfl
  · rfl
  · exact carriedReports effect

theorem middlewareEnds : EndsWith settings place (createOrReplaceClientMiddleware client)
    (fun r t => t.reports = s.reports ∧ (r = .ok () → t.middleware = some (client.toMiddlewareSpec place))) s := by
  unfold createOrReplaceClientMiddleware
  refine endsWithAsk fun w => ?_
  have stays : (answerMiddleware settings.own place w (.getMiddleware client.reference) s).2 = s := rfl
  rw [stays]
  split
  · refine soundMono (mustEndsWith _ _) ?_
    rintro r t ⟨moved,done⟩
    refine ⟨movedReports moved,fun ended => ?_⟩
    have done := done ended
    unfold MiddlewareWorld.carried at done
    dsimp only at done
    split at done
    · cases done
      rfl
    · cases done
  · refine soundMono (mustEndsWith _ _) ?_
    rintro r t ⟨moved,done⟩
    refine ⟨movedReports moved,fun ended => ?_⟩
    have done := done ended
    unfold MiddlewareWorld.carried at done
    dsimp only at done
    split at done
    · cases done
    · cases done
      rfl

theorem upsertEndsWith {id : String} {record : ClientRecord} : EndsWith settings place (ClientRedis.upsert id record)
    (fun r t => t.reports = s.reports ∧ (r = .ok () → t.middleware = s.middleware ∧ t.record = some record)) s := by
  unfold ClientRedis.upsert
  refine aloneBind (soundMono (mustEndsWith _ _) ?_)
  rintro r t ⟨moved,done⟩
  cases r with
  | error e => exact ⟨movedReports moved,fun never => by cases never⟩
  | ok _ =>
      cases done rfl
      refine soundMono (mustEndsWith _ _) ?_
      rintro r u ⟨moved,_⟩
      rcases moved with rfl | rfl
      · exact ⟨rfl,fun _ => ⟨rfl,rfl⟩⟩
      · exact ⟨rfl,fun _ => ⟨rfl,rfl⟩⟩

theorem destroyEndsWith {id : String} : EndsWith settings place (ClientRedis.destroy id)
    (fun r t => t.reports = s.reports ∧ (r = .ok () → t.record = none)) s := by
  unfold ClientRedis.destroy ClientRedis.find
  rw [bindAssoc]
  refine endsWithAsk fun w => ?_
  have stays : (answerMiddleware settings.own place w (.find id) s).2 = s := rfl
  rw [stays]
  split
  · rw [pureBind]
    refine aloneBind (soundMono (mustEndsWith _ _) ?_)
    rintro r t ⟨moved,done⟩
    cases r with
    | error e => exact ⟨movedReports moved,fun never => by cases never⟩
    | ok _ =>
        cases done rfl
        refine soundMono (mustEndsWith _ _) ?_
        rintro r u ⟨moved,_⟩
        rcases moved with rfl | rfl
        · exact ⟨rfl,fun _ => rfl⟩
        · exact ⟨rfl,fun _ => rfl⟩
  · exact (aloneThrow _ _ _).mpr ⟨rfl,fun never => by cases never⟩

variable (settings place) in
def Candid (s : MiddlewareWorld) : Prop := ∀ report ∈ s.reports, report.Honest settings place

theorem candidSame (candid : Candid settings place s) (reports : t.reports = s.reports) : Candid settings place t := by
  unfold Candid
  rw [reports]
  exact candid

theorem candidTold {condition : ReadyCondition} (candid : Candid settings place s)
    (honest : MiddlewareReport.Honest settings place ⟨client,condition,s.middleware,s.record⟩) :
    Candid settings place (s.told client (some condition)) := by
  intro report inside
  rcases List.mem_append.mp inside with old | new
  · exact candid report old
  · cases List.mem_singleton.mp new
    exact honest

theorem readyCandid {reason message : String} (candid : Candid settings place s)
    (named : reason = if client.isDisabled then "Disabled" else "Reconciled")
    (targets : HasTargets settings place client s.middleware s.record) :
    EndsWith settings place (reportReady client reason message) (fun _ => Candid settings place) s := by
  have told : Candid settings place
      (s.told (client.updateReadyCondition ⟨true,reason,message⟩).2 (some ⟨true,reason,message⟩)) :=
    candidTold candid ⟨fun _ => named,fun _ => targets⟩
  unfold reportReady replaceClientStatus
  refine endsWithAsk fun w => ?_
  split
  · exact (aloneCall _ _ _ _).mpr fun _ w => ⟨trivial,(alonePure _ _ _).mpr told⟩
  · exact (alonePure _ _ _).mpr told

theorem failureCandid {error : HandlerError} (candid : Candid settings place s) :
    EndsWith settings place (reportFailure client error) (fun _ => Candid settings place) s := by
  unfold reportFailure replaceClientStatus
  refine endsWithAsk fun w => ?_
  have told (client : Client) (reason message : String) : Candid settings place
      (answerMiddleware settings.own place w (.replaceClientStatus client (some ⟨false,reason,message⟩)) s).2 :=
    candidTold candid ⟨nofun,nofun⟩
  split
  · exact (aloneCall _ _ _ _).mpr fun _ _ => ⟨trivial,(alonePure _ _ _).mpr (told _ _ _)⟩
  · exact (alonePure _ _ _).mpr (told _ _ _)

theorem reportingCandid {body : Handling Unit} (candid : EndsWith settings place body (fun _ => Candid settings place) s) :
    EndsWith settings place (reporting client body) (fun _ => Candid settings place) s := by
  refine aloneTryCatch (soundMono candid ?_)
  intro r t candid
  cases r with
  | ok _ => exact candid
  | error e => exact failureCandid candid

theorem storeCandid (candid : Candid settings place s) (enabled : client.isDisabled = false)
    (made : s.middleware = some (client.toMiddlewareSpec place)) :
    EndsWith settings place (storeMiddlewareClient settings client) (fun _ => Candid settings place) s := by
  refine endsWithAsk fun w => ?_
  have drawn : answerMiddleware settings.own place w .randomUUID s = (w.uuid,s) := rfl
  rw [drawn]
  refine aloneBind (soundMono upsertEndsWith ?_)
  rintro r t ⟨reports,stored⟩
  have candid := candidSame candid reports
  cases r with
  | error e => exact candid
  | ok _ =>
      obtain ⟨middleware,record⟩ := stored rfl
      refine readyCandid candid (by rw [enabled]; rfl) ?_
      unfold HasTargets
      rw [enabled]
      exact ⟨middleware.trans made,w.uuid,record⟩

theorem disableCandid (candid : Candid settings place s) (disabled : client.isDisabled = true) :
    EndsWith settings place (disable client) (fun _ => Candid settings place) s := by
  refine aloneBind (soundMono destroyEndsWith ?_)
  rintro r t ⟨reports,gone⟩
  have candid := candidSame candid reports
  cases r with
  | error e => exact candid
  | ok _ =>
      refine readyCandid candid (by rw [disabled]; rfl) ?_
      unfold HasTargets
      rw [disabled]
      exact gone rfl

theorem oursCandid {next : Client → Handling Unit} (candid : Candid settings place s)
    (own : EndsWith settings place (next client) (fun _ => Candid settings place) s)
    (claimed : EndsWith settings place (next (client.claimed settings.own)) (fun _ => Candid settings place) s) :
    EndsWith settings place (whenOurs settings client next) (fun _ => Candid settings place) s := by
  unfold whenOurs
  split
  · exact own
  · split
    · exact (alonePure _ _ _).mpr candid
    · refine endsWithAsk fun w => ?_
      have answered : answerMiddleware settings.own place w (.replaceClientStatus client none) s =
          (if w.outcome = .applied then some (client.claimed settings.own) else none,s) := rfl
      rw [answered]
      by_cases applied : w.outcome = .applied
      · rw [if_pos applied]
        have ours : (some (client.claimed settings.own)).filter (·.boundTo = some settings.own) =
            some (client.claimed settings.own) := by simp [Client.claimed]
        dsimp only
        rw [ours]
        exact claimed
      · rw [if_neg applied]
        exact (alonePure _ _ _).mpr candid

theorem addingCandid (candid : Candid settings place s) :
    EndsWith settings place (reporting client do
      createOrReplaceClientMiddleware client
      if client.isDisabled then disable client else storeMiddlewareClient settings client)
      (fun _ => Candid settings place) s := by
  refine reportingCandid (aloneBind (soundMono middlewareEnds ?_))
  rintro r t ⟨reports,made⟩
  have candid := candidSame candid reports
  cases r with
  | error e => exact candid
  | ok _ =>
      rw [thenOk]
      split
      · rename_i disabled
        exact disableCandid candid disabled
      · rename_i enabled
        exact storeCandid candid (by simpa using enabled) (made rfl)

theorem modifyingCandid (candid : Candid settings place s) :
    EndsWith settings place (reporting client do
      if client.isDisabled then disable client
      else do
        ask (I := operatorCalls) .delay
        createOrReplaceClientMiddleware client
        storeMiddlewareClient settings client) (fun _ => Candid settings place) s := by
  refine reportingCandid ?_
  split
  · rename_i disabled
    exact disableCandid candid disabled
  · rename_i enabled
    refine endsWithAsk fun w => aloneBind (soundMono middlewareEnds ?_)
    rintro r t ⟨reports,made⟩
    have candid : Candid settings place t := candidSame candid reports
    cases r with
    | error e => exact candid
    | ok _ => exact storeCandid candid (by simpa using enabled) (made rfl)

end Handlers

namespace MiddlewareWorld
variable {settings : OperatorSettings} {place : Deployment} {reference : Reference} {s : MiddlewareWorld}

theorem handlerCandid (candid : Candid settings place s) (type : EventType) (version : MiddlewareVersion reference) :
    EndsWith settings place (handler settings version.client type) (fun _ => Candid settings place) s := by
  cases type with
  | added =>
      refine endsWithAsk fun w => ?_
      have remembered : Candid settings place (answerMiddleware settings.own place w (.register version.client) s).2 := candid
      exact oursCandid remembered (addingCandid remembered) (addingCandid remembered)
  | modified =>
      refine endsWithAsk fun w => ?_
      have remembered : Candid settings place (answerMiddleware settings.own place w (.shouldReconcile version.client) s).2 := candid
      split
      · exact (alonePure _ _ _).mpr remembered
      · exact oursCandid remembered (modifyingCandid remembered) (modifyingCandid remembered)
  | deleted =>
      refine endsWithAsk fun w => ?_
      have forgotten : Candid settings place (answerMiddleware settings.own place w (.unregister version.client) s).2 := candid
      split
      · exact (alonePure _ _ _).mpr forgotten
      · refine aloneTryCatch (soundMono destroyEndsWith ?_)
        rintro r t ⟨reports,_⟩
        have candid := candidSame forgotten reports
        cases r with
        | ok _ => exact candid
        | error e => exact (alonePure _ _ _).mpr candid

theorem stepCandid (candid : Candid settings place s) (move : MiddlewareMove reference) :
    Candid settings place (s.step settings place move) := by
  cases move with
  | disturb middleware record => exact candid
  | handle type version fates =>
      exact aloneRun (handlerCandid candid type version) (disciplinedTrivial _ fates s)

theorem runCandid (candid : Candid settings place s) (moves : List (MiddlewareMove reference)) :
    Candid settings place (s.run settings place moves) :=
  everyRunKeeps (Candid settings place) (fun _ move candid => stepCandid candid move) candid moves

end MiddlewareWorld

/- Whatever the calls come to, and whatever others do to the Middleware and the record between two events: a middleware client
is reported ready only while both are as it has them, or, where it is disabled, while it has no record. -/
theorem middlewareReportsHonest (settings : OperatorSettings) (place : Deployment) {reference : Reference}
    (start : MiddlewareWorld) (untold : start.reports = []) (moves : List (MiddlewareMove reference)) :
    ∀ report ∈ (start.run settings place moves).reports, report.Honest settings place := by
  refine MiddlewareWorld.runCandid ?_ moves
  intro report inside
  rw [untold] at inside
  cases inside

namespace Traefik

def reference : Reference := ⟨"apps","traefik",.oidcMiddlewareClient⟩

def place : Deployment := ⟨"passmower","auth"⟩

def version (generation : Nat) (disabled : Bool) : MiddlewareVersion reference where
  client := {
    reference := reference, generation := generation, boundTo := some "main"
    spec := {headerMapping := [("user","Remote-User")], disabled := disabled}}
  named := rfl
  kind := rfl

def disabling : List (MiddlewareMove reference) := [
  .handle .added (version 1 false) [],
  .handle .modified (version 2 true) [{outcome := .unanswered}],
  .disturb none none,
  .handle .added (version 2 true) []]

end Traefik

theorem disablingHonest : (MiddlewareWorld.run Grafana.settings Traefik.place Traefik.disabling {}).reports.Forall
    (·.Honest Grafana.settings Traefik.place) :=
  List.forall_iff_forall_mem.mpr (middlewareReportsHonest Grafana.settings Traefik.place {} rfl Traefik.disabling)

structure Delivery (reference : Reference) where
  type : EventType
  version : MiddlewareVersion reference
  uuids : List Uuid

instance : Inhabited Uuid := ⟨zeros⟩

def answerCarried (own : String) (place : Deployment) : Handler operatorCalls Uuid MiddlewareWorld :=
  fun uuid => answerMiddleware own place ⟨.applied,uuid⟩

section Deliveries
variable (settings : OperatorSettings) (place : Deployment) {reference : Reference}

def MiddlewareWorld.deliver (s : MiddlewareWorld) (delivery : Delivery reference) : MiddlewareWorld :=
  after (answerCarried settings.own place) (handler settings delivery.version.client delivery.type) delivery.uuids s

def Delivery.Ours (delivery : Delivery reference) : Prop :=
  delivery.version.client.boundTo = some settings.own ∨
    (delivery.version.client.boundTo = none ∧ delivery.type ≠ .deleted)

abbrev Converged (client : Client) (s : MiddlewareWorld) : Prop := HasTargets settings place client s.middleware s.record

def Delivery.Standing (delivery : Delivery reference) (s : MiddlewareWorld) : Prop := match delivery.type with
  | .deleted => s.record = none
  | .added | .modified => Converged settings place delivery.version.client s

end Deliveries

section Carrying
variable {settings : OperatorSettings} {place : Deployment} {client : Client} {s t : MiddlewareWorld}

abbrev Carries {α : Type} (settings : OperatorSettings) (place : Deployment) (p : Handling α)
    (Q : Except HandlerError α → MiddlewareWorld → Prop) (s : MiddlewareWorld) : Prop :=
  Alone (answerCarried settings.own place) (fun _ _ => True) (fun _ _ => True) p Q s

theorem carriesAsk {α : Type} {c : OperatorCall} {f : OperatorAnswer c → Handling α}
    {Q : Except HandlerError α → MiddlewareWorld → Prop}
    (rest : ∀ w, Carries settings place (f (answerCarried settings.own place w c s).1) Q
      (answerCarried settings.own place w c s).2) :
    Carries settings place (ask (I := operatorCalls) c >>= f) Q s :=
  (aloneAsk (I := operatorCalls) c f Q s).mpr fun _ w => ⟨trivial,rest w⟩

theorem mustCarries {effect : Effect} {error : HandlerError} (done : s.carried place effect = (true,t)) :
    Carries settings place (must effect error) (fun r u => r = .ok () ∧ u = t) s := by
  refine carriesAsk fun w => ?_
  have answered : answerCarried settings.own place w (.attempt effect) s = (true,t) := done
  rw [answered]
  exact (alonePure _ _ _).mpr ⟨rfl,rfl⟩

def Settles (settings : OperatorSettings) (place : Deployment) (client : Client) (s : MiddlewareWorld)
    (r : Except HandlerError Unit) (t : MiddlewareWorld) : Prop :=
  r = .ok () ∧ Converged settings place client t ∧ t.fingerprint = s.fingerprint

theorem middlewareCarries : Carries settings place (createOrReplaceClientMiddleware client)
    (fun r t => r = .ok () ∧ t = {s with middleware := some (client.toMiddlewareSpec place)}) s := by
  unfold createOrReplaceClientMiddleware
  refine carriesAsk fun w => ?_
  have answered : answerCarried settings.own place w (.getMiddleware client.reference) s = (s.middleware.isSome,s) := by
    simp only [answerCarried,answerMiddleware]
    simp
  rw [answered]
  cases there : s.middleware with
  | some middleware =>
      refine mustCarries ?_
      simp only [MiddlewareWorld.carried,there]
  | none =>
      refine mustCarries ?_
      simp only [MiddlewareWorld.carried,there]

theorem readyCarries {reason message : String} (converged : Converged settings place client s) :
    Carries settings place (reportReady client reason message) (Settles settings place client s) s := by
  unfold reportReady replaceClientStatus
  refine carriesAsk fun w => ?_
  split
  · exact (aloneCall _ _ _ _).mpr fun _ w => ⟨trivial,(alonePure _ _ _).mpr ⟨rfl,converged,rfl⟩⟩
  · exact (alonePure _ _ _).mpr ⟨rfl,converged,rfl⟩

theorem storeCarries (enabled : client.isDisabled = false) (made : s.middleware = some (client.toMiddlewareSpec place)) :
    Carries settings place (storeMiddlewareClient settings client) (Settles settings place client s) s := by
  refine carriesAsk fun w => ?_
  have drawn : answerCarried settings.own place w .randomUUID s = (w,s) := rfl
  rw [drawn]
  have set : s.carried place (.set client.clientId (client.toRedis settings (some w))) =
      (true,{s with record := some (client.toRedis settings (some w))}) := rfl
  refine aloneBind (aloneBind (soundMono (mustCarries set) ?_))
  rintro r _ ⟨rfl,rfl⟩
  have add : MiddlewareWorld.carried place {s with record := some (client.toRedis settings (some w))} (.sadd client.clientId) =
      (true,{s with record := some (client.toRedis settings (some w))}) := rfl
  refine soundMono (mustCarries add) ?_
  rintro r _ ⟨rfl,rfl⟩
  refine readyCarries ?_
  unfold Converged HasTargets
  rw [if_neg (by rw [enabled]; exact Bool.false_ne_true)]
  exact ⟨made,w,rfl⟩

theorem destroyCarries {id : String} : Carries settings place (ClientRedis.destroy id)
    (fun r t => r = .ok () ∧ t = {s with record := none}) s := by
  unfold ClientRedis.destroy ClientRedis.find
  rw [bindAssoc]
  refine carriesAsk fun w => ?_
  have found : answerCarried settings.own place w (.find id) s = (some s.record,s) := rfl
  rw [found]
  dsimp only
  rw [pureBind]
  have del : s.carried place (.del id) = (true,{s with record := none}) := rfl
  refine aloneBind (soundMono (mustCarries del) ?_)
  rintro r _ ⟨rfl,rfl⟩
  exact mustCarries rfl

theorem disableCarries (disabled : client.isDisabled = true) :
    Carries settings place (disable client) (Settles settings place client s) s := by
  refine aloneBind (soundMono destroyCarries ?_)
  rintro r _ ⟨rfl,rfl⟩
  refine readyCarries ?_
  unfold Converged HasTargets
  rw [if_pos disabled]

theorem reportingCarries {body : Handling Unit} (settles : Carries settings place body (Settles settings place client s) s)
    (subject : Client) : Carries settings place (reporting subject body) (Settles settings place client s) s := by
  refine aloneTryCatch (soundMono settles ?_)
  rintro r t ⟨rfl,settled⟩
  exact ⟨rfl,settled⟩

theorem addingCarries : Carries settings place (reporting client do
      createOrReplaceClientMiddleware client
      if client.isDisabled then disable client else storeMiddlewareClient settings client)
    (Settles settings place client s) s := by
  refine reportingCarries (aloneBind (soundMono middlewareCarries ?_)) client
  rintro r _ ⟨rfl,rfl⟩
  rw [thenOk]
  split
  · rename_i disabled
    exact disableCarries disabled
  · rename_i enabled
    exact storeCarries (by simpa using enabled) rfl

theorem modifyingCarries : Carries settings place (reporting client do
      if client.isDisabled then disable client
      else do
        ask (I := operatorCalls) .delay
        createOrReplaceClientMiddleware client
        storeMiddlewareClient settings client)
    (Settles settings place client s) s := by
  refine reportingCarries ?_ client
  split
  · rename_i disabled
    exact disableCarries disabled
  · rename_i enabled
    refine carriesAsk fun w => aloneBind (soundMono middlewareCarries ?_)
    rintro r _ ⟨rfl,rfl⟩
    exact storeCarries (by simpa using enabled) rfl

theorem oursCarries {next : Client → Handling Unit} (ours : client.boundTo = some settings.own ∨ client.boundTo = none)
    (settles : ∀ subject, Carries settings place (next subject) (Settles settings place subject s) s) :
    Carries settings place (whenOurs settings client next) (Settles settings place client s) s := by
  unfold whenOurs
  split
  · exact settles client
  · rename_i other
    rcases ours with bound | nobody
    · exact absurd bound other
    · rw [nobody]
      refine carriesAsk fun w => ?_
      have answered : answerCarried settings.own place w (.replaceClientStatus client none) s =
          (some (client.claimed settings.own),s) := rfl
      rw [answered]
      have ours : (some (client.claimed settings.own)).filter (·.boundTo = some settings.own) =
          some (client.claimed settings.own) := by simp [Client.claimed]
      dsimp only
      rw [ours]
      exact settles (client.claimed settings.own)

end Carrying

namespace MiddlewareWorld
variable {settings : OperatorSettings} {place : Deployment} {reference : Reference} {s : MiddlewareWorld}
  {delivery : Delivery reference} {deliveries : List (Delivery reference)}

def Remembers (settings : OperatorSettings) (place : Deployment) (deliveries : List (Delivery reference))
    (s : MiddlewareWorld) : Prop :=
  ∀ fingerprint, s.fingerprint = some fingerprint → ∃ delivery ∈ deliveries,
    delivery.version.client.getReconcileFingerprint = fingerprint ∧ Converged settings place delivery.version.client s

def Generations (deliveries : List (Delivery reference)) : Prop := ∀ a ∈ deliveries, ∀ b ∈ deliveries,
  a.version.client.getReconcileFingerprint = b.version.client.getReconcileFingerprint →
    a.version.client.spec = b.version.client.spec

theorem sameConverged {a b : MiddlewareVersion reference} (spec : a.client.spec = b.client.spec)
    (description : a.client.description = b.client.description) (converged : Converged settings place a.client s) :
    Converged settings place b.client s := by
  have named : a.client.reference = b.client.reference := a.named.trans b.named.symm
  have id : a.client.clientId = b.client.clientId := congrArg Reference.clientId named
  unfold Converged HasTargets Client.isDisabled Client.toMiddlewareSpec Client.toRedis at converged ⊢
  rw [a.kind] at converged
  rw [b.kind]
  rw [named,spec,id,description] at converged
  exact converged

theorem deliverStands (ours : delivery.Ours settings) (inside : delivery ∈ deliveries) (generations : Generations deliveries)
    (remembers : Remembers settings place deliveries s) :
    delivery.Standing settings place (s.deliver settings place delivery) ∧
      Remembers settings place deliveries (s.deliver settings place delivery) := by
  obtain ⟨type,version,uuids⟩ := delivery
  have bound : version.client.boundTo = some settings.own ∨ version.client.boundTo = none := ours.imp_right And.left
  have settled {t u : MiddlewareWorld} {r : Except HandlerError Unit}
      (fingerprint : t.fingerprint = some version.client.getReconcileFingerprint)
      (settles : Settles settings place version.client t r u) :
      Converged settings place version.client u ∧ Remembers settings place deliveries u := by
    refine ⟨settles.2.1,fun remembered same => ⟨_,inside,?_,settles.2.1⟩⟩
    exact Option.some.inj (fingerprint.symm.trans (settles.2.2.symm.trans same))
  have ended {p : Handling Unit} {Q : Except HandlerError Unit → MiddlewareWorld → Prop}
      (carries : Carries settings place p Q s) : ∃ r, Q r (after (answerCarried settings.own place) p uuids s) :=
    ⟨_,aloneRun carries (disciplinedTrivial p uuids s)⟩
  cases type with
  | added =>
      have carries : Carries settings place (createOIDCMiddlewareClient settings version.client) (fun r t =>
          Converged settings place version.client t ∧ Remembers settings place deliveries t) s := by
        refine carriesAsk fun w => ?_
        refine soundMono (oursCarries bound fun subject => addingCarries) fun r t settles => ?_
        exact settled rfl settles
      obtain ⟨_,done⟩ := ended carries
      exact done
  | modified =>
      have carries : Carries settings place (updateOIDCMiddlewareClient settings version.client) (fun r t =>
          Converged settings place version.client t ∧ Remembers settings place deliveries t) s := by
        refine carriesAsk fun w => ?_
        have answered : answerCarried settings.own place w (.shouldReconcile version.client) s =
            (decide (s.fingerprint ≠ some version.client.getReconcileFingerprint),
              {s with fingerprint := some version.client.getReconcileFingerprint}) := rfl
        rw [answered]
        by_cases same : s.fingerprint = some version.client.getReconcileFingerprint
        · rw [if_pos (by simp [same])]
          obtain ⟨earlier,listed,fingerprint,converged⟩ := remembers _ same
          have spec := generations earlier listed _ inside fingerprint
          have description := congrArg Prod.snd fingerprint
          have converged : Converged settings place version.client s := sameConverged spec description converged
          refine (alonePure _ _ _).mpr ⟨converged,fun remembered its => ⟨_,inside,?_,converged⟩⟩
          exact Option.some.inj its
        · rw [if_neg (by simp [same])]
          refine soundMono (oursCarries bound fun subject => modifyingCarries) fun r t settles => ?_
          exact settled rfl settles
      obtain ⟨_,done⟩ := ended carries
      exact done
  | deleted =>
      have own : version.client.boundTo = some settings.own := by
        rcases ours with own | none
        · exact own
        · exact absurd rfl none.2
      have carries : Carries settings place (deleteOIDCClient settings version.client) (fun r t =>
          t.record = none ∧ Remembers settings place deliveries t) s := by
        refine carriesAsk fun w => ?_
        have forgotten : answerCarried settings.own place w (.unregister version.client) s = ((),{s with fingerprint := none}) := rfl
        rw [forgotten,if_neg (fun other => other own)]
        refine aloneTryCatch (soundMono destroyCarries ?_)
        rintro r _ ⟨rfl,rfl⟩
        exact ⟨rfl,fun fingerprint never => by cases never⟩
      obtain ⟨_,done⟩ := ended carries
      exact done

theorem deliveriesRemember (ours : ∀ delivery ∈ deliveries, delivery.Ours settings) (generations : Generations deliveries)
    {before : List (Delivery reference)} (within : before ⊆ deliveries) (remembers : Remembers settings place deliveries s) :
    Remembers settings place deliveries (before.foldl (deliver settings place) s) := by
  induction before generalizing s with
  | nil => exact remembers
  | cons delivery rest ih =>
      obtain ⟨inside,within⟩ := List.cons_subset.mp within
      exact ih within (deliverStands (ours delivery inside) inside generations remembers).2

end MiddlewareWorld

/- Once the events of a middleware client of this instance have been handled one after another, with every call carried out,
its Middleware and its record are those of the last version, and there is no record if it is disabled or has been deleted. -/
theorem middlewareConverges (settings : OperatorSettings) (place : Deployment) {reference : Reference}
    (start : MiddlewareWorld) (fresh : start.fingerprint = none) (before : List (Delivery reference)) (last : Delivery reference)
    (ours : ∀ delivery ∈ before ++ [last], delivery.Ours settings)
    (generations : MiddlewareWorld.Generations (before ++ [last])) :
    last.Standing settings place ((before ++ [last]).foldl (MiddlewareWorld.deliver settings place) start) := by
  have inside : last ∈ before ++ [last] := List.mem_append_right before (List.mem_singleton_self last)
  have begun : MiddlewareWorld.Remembers settings place (before ++ [last]) start := by
    intro fingerprint never
    rw [fresh] at never
    cases never
  have remembers := MiddlewareWorld.deliveriesRemember ours generations (List.subset_append_left before [last]) begun
  rw [List.foldl_append]
  exact (MiddlewareWorld.deliverStands (ours last inside) inside generations remembers).1

namespace Traefik

def deliver (type : EventType) (generation : Nat) (disabled : Bool) : Delivery reference := ⟨type,version generation disabled,[]⟩

end Traefik

theorem disabledConverges : (Traefik.deliver .modified 2 true).Standing Grafana.settings Traefik.place
    (([Traefik.deliver .added 1 false,Traefik.deliver .modified 1 false] ++ [Traefik.deliver .modified 2 true]).foldl
      (MiddlewareWorld.deliver Grafana.settings Traefik.place) {}) := by
  refine middlewareConverges Grafana.settings Traefik.place {} rfl _ _ ?_ ?_
  · intro delivery inside
    have cases : delivery = Traefik.deliver .added 1 false ∨ delivery = Traefik.deliver .modified 1 false ∨
        delivery = Traefik.deliver .modified 2 true := by simpa using inside
    rcases cases with rfl | rfl | rfl
    · exact .inl rfl
    · exact .inl rfl
    · exact .inl rfl
  · intro a left b right same
    have spec (delivery : Delivery Traefik.reference) (inside : delivery ∈ [Traefik.deliver .added 1 false,
        Traefik.deliver .modified 1 false] ++ [Traefik.deliver .modified 2 true]) :
        delivery.version.client.spec = (Traefik.version delivery.version.client.generation
          (delivery.version.client.generation == 2)).client.spec := by
      have cases : delivery = Traefik.deliver .added 1 false ∨ delivery = Traefik.deliver .modified 1 false ∨
          delivery = Traefik.deliver .modified 2 true := by simpa using inside
      rcases cases with rfl | rfl | rfl <;> rfl
    have generation : a.version.client.generation = b.version.client.generation := congrArg Prod.fst same
    rw [spec a left,spec b right,generation]

end Passmower.ClientHandlers
