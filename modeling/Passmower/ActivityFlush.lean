import Passmower.ActivityTracker
import Passmower.Resumption.Reasoning

/-! What a flush leaves of the status of a client. The whole status is built anew from the resource that was read;
what an Ingress resolved to is in the memory of the operator that resolved it alone. -/
namespace Passmower
open JavaScript Resumption Program

/- `Date`: the instant that a value gives, if any, and the text of an instant. -/
structure Dates where
  instant : Json → Option Int
  toISOString : Int → String

namespace ActivityFlush

def isObject : Json → Bool
  | .object _ => true
  | _ => false

def asObject : Json → Option Object
  | .object fields => some fields
  | _ => none

def wellFormed (fields : Object) : Bool := match given (fields.get "conditions") with
  | none => true
  | some (.array listed) => listed.all isObject
  | _ => false

structure ClientStatus where
  fields : Object
  valid : wellFormed fields = true

structure ClientResource where
  creationTimestamp : Option String := none
  uri : Option String := none
  redirectUris : Option (List String) := none
  ingressRef : Option String := none
  status : Option ClientStatus := none

def ClientResource.fields (resource : ClientResource) : Object := (resource.status.map ClientStatus.fields).getD []

def hasType (type : String) (condition : Object) : Bool := match condition.get "type" with
  | some (.string text) => text = type
  | _ => false

def conditionsOf (fields : Object) : List Object :=
  (((given (fields.get "conditions")).map items).getD []).filterMap asObject

structure ClientActivityState where
  status : Object
  conditions : List Object
  lastUsedAt : Option Json
  creationTimestamp : Option String

namespace ClientActivityState
variable (dates : Dates) (state : ClientActivityState)

def ofResource (resource : ClientResource) : ClientActivityState where
  status := Object.spread [("instance",.null)] resource.fields
  conditions := conditionsOf resource.fields
  lastUsedAt := given (resource.fields.get "lastUsedAt")
  creationTimestamp := resource.creationTimestamp

def getIntendedStatus : Object := state.status.spread
  [("lastUsedAt",state.lastUsedAt.getD .null),("conditions",.array (state.conditions.map .object))]

def inactiveCondition (inactive : Bool) (inactiveAfterDays : Nat) (lastTransitionTime : Json) : Object := [
  ("type",.string "Inactive"),
  ("status",.string (if inactive then "True" else "False")),
  ("reason",.string (if inactive then "NotUsedRecently" else "RecentlyUsed")),
  ("message",.string (if inactive then s!"Client has not been used for at least {inactiveAfterDays} days"
    else s!"Client was used within the last {inactiveAfterDays} days")),
  ("lastTransitionTime",lastTransitionTime)]

def updateActivityCondition (now : Int) (inactiveAfterDays : Nat) : ClientActivityState :=
  match (state.lastUsedAt <|> state.creationTimestamp.map Json.string).filter Json.isTruthy with
  | none => state
  | some reference =>
      let inactive := match dates.instant reference with
        | some used => decide (inactiveAfterDays * 86400000 ≤ now - used)
        | none => false
      let transition : Option Json := do
        let previous ← state.conditions.find? (hasType "Inactive")
        let status ← (previous.get "status").bind Json.string?
        if status = if inactive then "True" else "False" then (previous.get "lastTransitionTime").filter Json.isTruthy
        else none
      let condition := inactiveCondition inactive inactiveAfterDays (transition.getD (.string (dates.toISOString now)))
      {state with conditions := state.conditions.filter (fun item => !hasType "Inactive" item) ++ [condition]}

end ClientActivityState

def newerTime (dates : Dates) (a : Option Json) (b : String) : Json := match a.filter Json.isTruthy with
  | none => .string b
  | some a =>
      if b = "" then a
      else match dates.instant a, dates.instant (.string b) with
        | some earlier, some later => if later ≤ earlier then a else .string b
        | _, _ => .string b

structure Client where
  kind : ClientKind
  activityState : ClientActivityState
  uri : Option String
  redirectUris : List String
  ingressRef : Option String

namespace Client
variable (dates : Dates) (client : Client)

def fromIncomingClient (kind : ClientKind) (resource : ClientResource) : Client where
  kind := kind
  activityState := .ofResource resource
  uri := resource.uri
  redirectUris := resource.redirectUris.getD []
  ingressRef := resource.ingressRef

def setLastUsedAt (lastUsedAt : Json) : Client :=
  {client with activityState := {client.activityState with lastUsedAt := given (some lastUsedAt)}}

def updateActivityCondition (now : Int) (inactiveAfterDays : Nat) : Client :=
  {client with activityState := client.activityState.updateActivityCondition dates now inactiveAfterDays}

def getIntendedStatus : Object := match client.kind, client.ingressRef.filter (· ≠ "") with
  | .oidcClient, some _ => client.activityState.getIntendedStatus.spread
      [("resolvedUri",(client.uri.map Json.string).getD .null),
        ("resolvedRedirectUris",.array (client.redirectUris.map .string))]
  | _, _ => client.activityState.getIntendedStatus

end Client

def intended (dates : Dates) (inactiveAfterDays : Nat) (kind : ClientKind) (activity : Option String) (now : Int)
    (resource : ClientResource) : Object :=
  let client := Client.fromIncomingClient kind resource
  let client := match activity with
    | some lastAuthenticatedAt =>
        client.setLastUsedAt (newerTime dates client.activityState.lastUsedAt lastAuthenticatedAt)
    | none => client
  (client.updateActivityCondition dates now inactiveAfterDays).getIntendedStatus

inductive ClientCall where
  | get
  | replace (status : Object) (resourceVersion : Nat)
  | now

abbrev clientApi : Interface where
  Call := ClientCall
  Answer
    | .get => Except Failure (ClientResource × Nat)
    | .replace _ _ => Except Failure ClientResource
    | .now => Int

abbrev Flushing := Program clientApi Failure

section Program
variable (isEqual : Object → Object → Bool) (statusFunction : Int → ClientResource → Object)

def mutateOnce : Flushing Unit := do
  let answer ← (ask (I := clientApi) .get : Flushing (Except Failure (ClientResource × Nat)))
  let (current,resourceVersion) ← orThrow answer
  let now ← (ask (I := clientApi) .now : Flushing Int)
  let status := statusFunction now current
  if isEqual current.fields status then .pure ()
  else do
    let answer ← (ask (I := clientApi) (.replace status resourceVersion) : Flushing (Except Failure ClientResource))
    let _ ← orThrow answer
    .pure ()

/- `mutateNamespacedCustomObjectStatus` with so many attempts left. -/
def mutateStatus : Nat → Flushing Mutated
  | 0 => .pure .failed
  | left + 1 => do
      let attempted ← (mutateOnce isEqual statusFunction).attempt
      match attempted with
      | .ok _ => .pure .updated
      | .error error =>
          if error.code = some 404 then .pure .missing
          else if error.code = some 409 ∧ left ≠ 0 then mutateStatus left
          else .pure .failed

end Program

def flushClient (isEqual : Object → Object → Bool) (dates : Dates) (inactiveAfterDays : Nat) (kind : ClientKind)
    (activity : Option String) : Flushing Unit := do
  let mutated ← mutateStatus isEqual (intended dates inactiveAfterDays kind activity) 3
  match mutated with
  | .failed => .throw {}
  | _ => .pure ()

/- The fields that are null are not stored: none of the schema's is nullable. -/
def pruned (status : Object) : Object := status.filter fun field => (given (status.get field.1)).isSome

/- The client that is stored, and the writes of the flush: what was there before each, and after. -/
structure ClientStore where
  resource : Option ClientResource
  resourceVersion : Nat := 0
  written : List (ClientResource × ClientResource) := []

structure ApiTurn where
  edit : Option (Option ClientResource) := none
  sent : Outcome := .served
  answered : Outcome := .served
  now : Int := 0

instance : Inhabited ApiTurn := ⟨{}⟩

namespace ClientStore
variable (store : ClientStore)

def edited : Option (Option ClientResource) → ClientStore
  | none => store
  | some resource => {store with resource := resource, resourceVersion := store.resourceVersion + 1}

def replace (status : Object) (resourceVersion : Nat) : Except Failure ClientResource × ClientStore :=
  match store.resource with
  | none => (.error .notFound,store)
  | some resource =>
      if resourceVersion = store.resourceVersion then
        if valid : wellFormed (pruned status) = true then
          let after := {resource with status := some ⟨pruned status,valid⟩}
          (.ok after,⟨some after,store.resourceVersion + 1,store.written ++ [(resource,after)]⟩)
        else (.error ⟨some 422⟩,store)
      else (.error .conflict,store)

def answer (turn : ApiTurn) : (call : clientApi.Call) → ClientStore → clientApi.Answer call × ClientStore
  | .get,store => (turn.answered.onto (match store.resource with
      | some resource => .ok (resource,store.resourceVersion)
      | none => .error .notFound),store)
  | .replace status resourceVersion,store => match turn.sent with
      | .failed error => (.error error,store)
      | .served =>
          let out := store.replace status resourceVersion
          (turn.answered.onto out.1,out.2)
  | .now,store => (turn.now,store)

end ClientStore

def answerClientApi : Handler clientApi ApiTurn ClientStore := fun turn call store =>
  ClientStore.answer turn call (store.edited turn.edit)

def otherConditions (resource : ClientResource) : List Object :=
  (conditionsOf resource.fields).filter fun condition => !hasType "Inactive" condition

structure Framed (before after : ClientResource) : Prop where
  spec : {after with status := none} = {before with status := none}
  fields : ∀ key, key ≠ "lastUsedAt" → key ≠ "conditions" →
    given (after.fields.get key) = given (before.fields.get key)
  conditions : otherConditions after = otherConditions before

/- An `OIDCClient` whose `ingressRef` has a name. -/
def TakesIngress (kind : ClientKind) (resource : ClientResource) : Prop :=
  kind = .oidcClient ∧ (resource.ingressRef.filter (· ≠ "")).isSome = true

instance (kind : ClientKind) (resource : ClientResource) : Decidable (TakesIngress kind resource) :=
  inferInstanceAs (Decidable (_ ∧ _))

def Reproduced (kind : ClientKind) (resource : ClientResource) : Prop := TakesIngress kind resource →
  given (resource.fields.get "resolvedUri") = resource.uri.map .string ∧
    given (resource.fields.get "resolvedRedirectUris") = some (.array ((resource.redirectUris.getD []).map .string))

section Status
variable {dates : Dates} {inactiveAfterDays : Nat} {kind : ClientKind} {activity : Option String} {now : Int}
  {resource after : ClientResource} {status fields : Object} {key : String}

@[simp] theorem givenTwice (value : Option Json) : given (given value) = given value := by
  cases value with
  | none => rfl
  | some value => cases value <;> rfl

@[simp] theorem getPruned (status : Object) (key : String) : (pruned status).get key = given (status.get key) := by
  have same : (pruned status).find? (fun field => field.1 == key) =
      if (given (status.get key)).isSome then status.find? (fun field => field.1 == key) else none := by
    unfold pruned
    rw [List.find?_filter]
    split
    · rename_i here
      congr 1
      funext field
      by_cases same : field.1 = key
      · simp [same,here]
      · simp [same]
    · rename_i null
      refine List.find?_eq_none.mpr fun field _ both => ?_
      simp only [beq_iff_eq,decide_eq_true_eq] at both
      exact null (both.2 ▸ both.1)
  unfold Object.get
  rw [same]
  cases found : status.find? (fun field => field.1 == key) with
  | none => simp [Object.get,found,given]
  | some field =>
      obtain ⟨name,value⟩ := field
      have here : status.get key = some value := by simp [Object.get,found]
      rw [here]
      cases value with
      | null => simp [given]
      | _ => simp [given]

theorem objectsBack (listed : List Object) : (listed.map Json.object).filterMap asObject = listed := by
  induction listed with
  | nil => rfl
  | cons head rest ih => simpa [asObject] using ih

theorem stateUpdated (state : ClientActivityState) :
    (state.updateActivityCondition dates now inactiveAfterDays).status = state.status ∧
    (state.updateActivityCondition dates now inactiveAfterDays).lastUsedAt = state.lastUsedAt ∧
    (state.updateActivityCondition dates now inactiveAfterDays).conditions.filter (fun item => !hasType "Inactive" item) =
      state.conditions.filter (fun item => !hasType "Inactive" item) := by
  unfold ClientActivityState.updateActivityCondition
  split
  · exact ⟨rfl,rfl,rfl⟩
  · refine ⟨rfl,rfl,?_⟩
    simp [List.filter_append,hasType,ClientActivityState.inactiveCondition,Object.get]

theorem intendedShape : ∃ state : ClientActivityState,
    intended dates inactiveAfterDays kind activity now resource = Client.getIntendedStatus
      ⟨kind,state,resource.uri,resource.redirectUris.getD [],resource.ingressRef⟩ ∧
    state.status = Object.spread [("instance",.null)] resource.fields ∧
    state.conditions.filter (fun item => !hasType "Inactive" item) = otherConditions resource := by
  cases activity with
  | none => exact ⟨_,rfl,(stateUpdated _).1,(stateUpdated _).2.2⟩
  | some lastAuthenticatedAt => exact ⟨_,rfl,(stateUpdated _).1,(stateUpdated _).2.2⟩

section Client
variable {state : ClientActivityState}

theorem statusTaken (takes : TakesIngress kind resource) : Client.getIntendedStatus
    ⟨kind,state,resource.uri,resource.redirectUris.getD [],resource.ingressRef⟩ = state.getIntendedStatus.spread
      [("resolvedUri",(resource.uri.map Json.string).getD .null),
        ("resolvedRedirectUris",.array ((resource.redirectUris.getD []).map .string))] := by
  obtain ⟨rfl,named⟩ := takes
  obtain ⟨name,here⟩ := Option.isSome_iff_exists.mp named
  simp only [Client.getIntendedStatus,here]

theorem statusPlain (plain : ¬ TakesIngress kind resource) : Client.getIntendedStatus
    ⟨kind,state,resource.uri,resource.redirectUris.getD [],resource.ingressRef⟩ = state.getIntendedStatus := by
  unfold Client.getIntendedStatus
  split
  · rename_i same name
    exact absurd ⟨same,Option.isSome_iff_exists.mpr ⟨_,name⟩⟩ plain
  · rfl

theorem statusConditions : (Client.getIntendedStatus
    ⟨kind,state,resource.uri,resource.redirectUris.getD [],resource.ingressRef⟩).get "conditions" =
      some (.array (state.conditions.map .object)) := by
  have own : state.getIntendedStatus.get "conditions" = some (.array (state.conditions.map .object)) := by
    simp [ClientActivityState.getIntendedStatus,Object.get,Object.spread]
  by_cases takes : TakesIngress kind resource
  · rw [statusTaken takes,getSpread,own]
    rfl
  · rw [statusPlain takes,own]

theorem statusFields (used : key ≠ "lastUsedAt") (conditions : key ≠ "conditions") : (Client.getIntendedStatus
    ⟨kind,state,resource.uri,resource.redirectUris.getD [],resource.ingressRef⟩).get key =
      if TakesIngress kind resource ∧ key = "resolvedUri" then some ((resource.uri.map Json.string).getD .null)
      else if TakesIngress kind resource ∧ key = "resolvedRedirectUris" then
        some (.array ((resource.redirectUris.getD []).map .string))
      else state.status.get key := by
  have own : state.getIntendedStatus.get key = state.status.get key := by
    unfold ClientActivityState.getIntendedStatus
    rw [getSpread]
    simp [Object.get,used.symm,conditions.symm]
  by_cases takes : TakesIngress kind resource
  · rw [statusTaken takes,getSpread,own]
    by_cases uri : key = "resolvedUri"
    · simp [Object.get,uri,takes]
    · by_cases uris : key = "resolvedRedirectUris"
      · simp [Object.get,uris,takes]
      · simp [Object.get,Ne.symm uri,Ne.symm uris,uri,uris]
  · rw [statusPlain takes,own]
    simp [takes]

end Client

@[simp] theorem givenText (value : Option String) : given (some ((value.map Json.string).getD .null)) = value.map .string := by
  cases value <;> rfl

theorem givenClaimed : given ((Object.spread [("instance",.null)] fields).get key) = given (fields.get key) := by
  rw [getSpread]
  cases here : fields.get key with
  | some value => rfl
  | none =>
      by_cases same : key = "instance"
      · simp [Object.get,same,given]
      · simp [Object.get,Ne.symm same,given]

theorem writeFramed (same : after.fields = pruned (intended dates inactiveAfterDays kind activity now resource))
    (spec : {after with status := none} = {resource with status := none}) :
    Framed resource after ↔ Reproduced kind resource := by
  obtain ⟨state,shape,status,conditions⟩ := @intendedShape dates inactiveAfterDays kind activity now resource
  rw [shape] at same
  have told (key : String) (used : key ≠ "lastUsedAt") (unlisted : key ≠ "conditions") :
      given (after.fields.get key) = if TakesIngress kind resource ∧ key = "resolvedUri" then resource.uri.map .string
        else if TakesIngress kind resource ∧ key = "resolvedRedirectUris" then
          some (.array ((resource.redirectUris.getD []).map .string))
        else given (resource.fields.get key) := by
    rw [same,getPruned,givenTwice,statusFields used unlisted,status]
    split
    · exact givenText _
    · split
      · rfl
      · exact givenClaimed
  constructor
  · intro framed takes
    have uri := framed.fields "resolvedUri" (by decide) (by decide)
    have uris := framed.fields "resolvedRedirectUris" (by decide) (by decide)
    rw [told _ (by decide) (by decide)] at uri uris
    simp only [takes,true_and,if_true,if_neg (by decide : "resolvedRedirectUris" ≠ "resolvedUri")] at uri uris
    exact ⟨uri.symm,uris.symm⟩
  · intro reproduced
    refine ⟨spec,fun key used unlisted => ?_,?_⟩
    · rw [told key used unlisted]
      split
      · rename_i here
        rw [here.2,(reproduced here.1).1]
      · split
        · rename_i here
          rw [here.2,(reproduced here.1).2]
        · rfl
    · rw [← conditions]
      unfold otherConditions conditionsOf
      rw [same,getPruned,givenTwice,statusConditions]
      simp only [given,Option.map_some,Option.getD_some,items,objectsBack]

end Status

section Runs
variable {isEqual : Object → Object → Bool} {dates : Dates} {inactiveAfterDays : Nat} {kind : ClientKind}
  {activity : Option String} {store : ClientStore} {resource : ClientResource} {resourceVersion : Nat}

def Honest (kind : ClientKind) (store : ClientStore) : Prop :=
  ∀ before after, (before,after) ∈ store.written → (Framed before after ↔ Reproduced kind before)

structure Snapshot (resource : ClientResource) (resourceVersion : Nat) (store : ClientStore) : Prop where
  past : resourceVersion ≤ store.resourceVersion
  same : resourceVersion = store.resourceVersion → store.resource = some resource

theorem honestEdited {edit : Option (Option ClientResource)} (honest : Honest kind store) : Honest kind (store.edited edit) := by
  cases edit with
  | none => exact honest
  | some resource => exact honest

theorem snapshotEdited {edit : Option (Option ClientResource)} (snapshot : Snapshot resource resourceVersion store) :
    Snapshot resource resourceVersion (store.edited edit) := by
  cases edit with
  | none => exact snapshot
  | some other =>
      have past := snapshot.past
      refine ⟨by simp only [ClientStore.edited]; omega,fun same => ?_⟩
      simp only [ClientStore.edited] at same
      omega

theorem replaceHonest {now : Int} (honest : Honest kind store) (snapshot : Snapshot resource resourceVersion store) :
    Honest kind (store.replace (intended dates inactiveAfterDays kind activity now resource) resourceVersion).2 := by
  unfold ClientStore.replace
  split
  · exact honest
  rename_i current here
  split
  · rename_i same
    cases Option.some.inj ((snapshot.same same).symm.trans here)
    split
    · intro before after inside
      rcases List.mem_append.mp inside with earlier | new
      · exact honest before after earlier
      · cases List.mem_singleton.mp new
        exact writeFramed rfl rfl
    · exact honest
  · exact honest

abbrev Interleaved {α : Type} (p : Flushing α) (Q : Except Failure α → ClientStore → Prop) (store : ClientStore) : Prop :=
  Alone answerClientApi (fun _ _ => True) (fun _ _ => True) p Q store

theorem staysPure {α : Type} {a : α} {P : ClientStore → Prop} (holds : P store) :
    Interleaved (.pure a : Flushing α) (fun _ last => P last) store := (alonePure a _ store).mpr holds

theorem staysThrow {α : Type} {e : Failure} {P : ClientStore → Prop} (holds : P store) :
    Interleaved (.throw e : Flushing α) (fun _ last => P last) store := (aloneThrow e _ store).mpr holds

theorem staysBind {α β : Type} {p : Flushing α} {f : α → Flushing β} {P : ClientStore → Prop}
    (first : Interleaved p (fun _ last => P last) store)
    (rest : ∀ a last, P last → Interleaved (f a) (fun _ last => P last) last) :
    Interleaved (p >>= f) (fun _ last => P last) store := by
  apply aloneBind
  refine soundMono first fun r last holds => ?_
  cases r with
  | ok a => exact rest a last holds
  | error e => exact holds

theorem orThrowStays {α : Type} (answer : Except Failure α) {P : ClientStore → Prop} (holds : P store) :
    Interleaved (orThrow answer) (fun _ last => P last) store := by
  cases answer with
  | ok value => exact staysPure holds
  | error e => exact staysThrow holds

theorem mutateOnceHonest (honest : Honest kind store) : Interleaved
    (mutateOnce isEqual (intended dates inactiveAfterDays kind activity)) (fun _ last => Honest kind last) store := by
  unfold mutateOnce
  rw [Interleaved,aloneAsk]
  intro _ turn
  refine ⟨trivial,?_⟩
  have honest := @honestEdited kind store turn.edit honest
  simp only [answerClientApi,ClientStore.answer]
  cases outcome : turn.answered with
  | failed error => exact staysThrow honest
  | served =>
      cases here : (store.edited turn.edit).resource with
      | none => exact staysThrow honest
      | some resource =>
          simp only [Outcome.onto,orThrow,pureBind]
          have snapshot : Snapshot resource (store.edited turn.edit).resourceVersion (store.edited turn.edit) :=
            ⟨le_refl _,fun _ => here⟩
          rw [aloneAsk]
          intro _ timed
          refine ⟨trivial,?_⟩
          have honest : Honest kind (answerClientApi timed .now (store.edited turn.edit)).2 := honestEdited honest
          have snapshot : Snapshot resource (store.edited turn.edit).resourceVersion
              (answerClientApi timed .now (store.edited turn.edit)).2 := snapshotEdited snapshot
          generalize answerClientApi timed .now (store.edited turn.edit) = read at honest snapshot ⊢
          obtain ⟨now,middle⟩ := read
          by_cases same : isEqual resource.fields (intended dates inactiveAfterDays kind activity now resource) = true
          · rw [if_pos same]
            exact staysPure honest
          rw [if_neg same,aloneAsk]
          intro _ sent
          have written : Honest kind (answerClientApi sent (.replace
              (intended dates inactiveAfterDays kind activity now resource) (store.edited turn.edit).resourceVersion) middle).2 := by
            simp only [answerClientApi,ClientStore.answer]
            cases sent.sent with
            | failed error => exact honestEdited honest
            | served => exact replaceHonest (honestEdited honest) (snapshotEdited snapshot)
          exact ⟨trivial,staysBind (orThrowStays _ written) fun updated last honest => staysPure honest⟩

theorem mutateHonest (left : Nat) (honest : Honest kind store) : Interleaved
    (mutateStatus isEqual (intended dates inactiveAfterDays kind activity) left) (fun _ last => Honest kind last) store := by
  induction left generalizing store with
  | zero => exact staysPure honest
  | succ left ih =>
      unfold mutateStatus
      refine staysBind (soundAttempt (mutateOnceHonest honest)) fun attempted last honest => ?_
      cases attempted with
      | ok done => exact staysPure honest
      | error error =>
          dsimp only
          split
          · exact staysPure honest
          · split
            · exact ih honest
            · exact staysPure honest

theorem flushHonest (honest : Honest kind store) : Interleaved
    (flushClient isEqual dates inactiveAfterDays kind activity) (fun _ last => Honest kind last) store := by
  unfold flushClient
  refine staysBind (mutateHonest 3 honest) fun mutated last honest => ?_
  cases mutated with
  | failed => exact staysThrow honest
  | missing => exact staysPure honest
  | updated => exact staysPure honest

end Runs

def isPlain : Json → Bool
  | .null | .string _ => true
  | .array listed => listed.all fun item => item.string?.isSome
  | _ => false

/- What `isEqual` takes for equal has the same texts under the same keys. -/
structure Tells (isEqual : Object → Object → Bool) : Prop where
  plain : ∀ a b key value, isEqual a b = true → b.get key = some value → isPlain value = true → a.get key = some value

def ClientStore.flushed (isEqual : Object → Object → Bool) (dates : Dates) (inactiveAfterDays : Nat) (kind : ClientKind)
    (activity : Option String) (turns : List ApiTurn) (store : ClientStore) : ClientStore :=
  after answerClientApi (flushClient isEqual dates inactiveAfterDays kind activity) turns store

def answerAtOnce : Handler clientApi Int ClientStore := fun now => answerClientApi {now := now}

section Exactness
variable {isEqual : Object → Object → Bool} {dates : Dates} {inactiveAfterDays : Nat} {kind : ClientKind}
  {activity : Option String} {now : Int} {resource : ClientResource}

theorem intendedValid : wellFormed (pruned (intended dates inactiveAfterDays kind activity now resource)) = true := by
  obtain ⟨state,shape,-,-⟩ := @intendedShape dates inactiveAfterDays kind activity now resource
  unfold wellFormed
  rw [getPruned,shape,statusConditions]
  simp [given,isObject]

theorem equalReproduced (tells : Tells isEqual)
    (same : isEqual resource.fields (intended dates inactiveAfterDays kind activity now resource) = true) :
    Reproduced kind resource := by
  intro takes
  obtain ⟨state,shape,-,-⟩ := @intendedShape dates inactiveAfterDays kind activity now resource
  rw [shape] at same
  constructor
  · rw [tells.plain _ _ "resolvedUri" _ same (by rw [statusFields (by decide) (by decide),if_pos ⟨takes,rfl⟩])]
    · exact givenText _
    · cases resource.uri <;> rfl
  · rw [tells.plain _ _ "resolvedRedirectUris" _ same (by
      rw [statusFields (by decide) (by decide),if_neg fun both => absurd both.2 (by decide),if_pos ⟨takes,rfl⟩])]
    · rfl
    · simp [isPlain,Json.string?]

theorem framedSelf (resource : ClientResource) : Framed resource resource := ⟨rfl,fun _ _ _ => rfl,rfl⟩

def Left (kind : ClientKind) (resource : ClientResource) (last : ClientStore) : Prop :=
  ∃ after, last.resource = some after ∧ (Framed resource after ↔ Reproduced kind resource)

theorem mutateOnceExact (tells : Tells isEqual) (resourceVersion : Nat) (written : List (ClientResource × ClientResource)) :
    Alone answerAtOnce (fun _ _ => True) (fun _ _ => True)
      (mutateOnce isEqual (intended dates inactiveAfterDays kind activity))
      (fun r last => r = .ok () ∧ Left kind resource last) ⟨some resource,resourceVersion,written⟩ := by
  unfold mutateOnce
  rw [aloneAsk]
  intro _ _
  refine ⟨trivial,?_⟩
  have got (w : Int) : answerAtOnce w .get ⟨some resource,resourceVersion,written⟩ =
      (.ok (resource,resourceVersion),⟨some resource,resourceVersion,written⟩) := rfl
  rw [got]
  simp only [orThrow,pureBind]
  rw [aloneAsk]
  intro _ now
  refine ⟨trivial,?_⟩
  have told : answerAtOnce now .now ⟨some resource,resourceVersion,written⟩ =
      (now,⟨some resource,resourceVersion,written⟩) := rfl
  rw [told]
  by_cases same : isEqual resource.fields (intended dates inactiveAfterDays kind activity now resource) = true
  · rw [if_pos same,alonePure]
    exact ⟨rfl,resource,rfl,iff_of_true (framedSelf resource) (equalReproduced tells same)⟩
  rw [if_neg same,aloneAsk]
  intro _ w
  refine ⟨trivial,?_⟩
  let after : ClientResource := {resource with status := some ⟨_,@intendedValid dates inactiveAfterDays kind activity now resource⟩}
  have replaced : answerAtOnce w (.replace (intended dates inactiveAfterDays kind activity now resource) resourceVersion)
      ⟨some resource,resourceVersion,written⟩ =
        (.ok after,⟨some after,resourceVersion + 1,written ++ [(resource,after)]⟩) := by
    simp only [answerAtOnce,answerClientApi,ClientStore.answer,ClientStore.edited,ClientStore.replace,if_true,
      dif_pos intendedValid]
    rfl
  rw [replaced]
  simp only [pureBind]
  rw [alonePure]
  exact ⟨rfl,after,rfl,writeFramed rfl rfl⟩

theorem flushExact (tells : Tells isEqual) (resourceVersion : Nat) (written : List (ClientResource × ClientResource)) :
    Alone answerAtOnce (fun _ _ => True) (fun _ _ => True) (flushClient isEqual dates inactiveAfterDays kind activity)
      (fun _ last => Left kind resource last) ⟨some resource,resourceVersion,written⟩ := by
  unfold flushClient mutateStatus
  apply aloneBind
  apply aloneBind
  refine soundAttempt (soundMono (mutateOnceExact tells resourceVersion written) fun r last both => ?_)
  obtain ⟨rfl,left⟩ := both
  simp only [thenOk,alonePure]
  exact left

/- Every write a flush makes, whatever others write meanwhile, keeps to the frame exactly where the client it is made to takes
nothing from an Ingress or has a status that says what its spec says; a flush of its own does so exactly for such a client. -/
theorem activityFlush (tells : Tells isEqual) (dates : Dates) (inactiveAfterDays : Nat) (kind : ClientKind)
    (activity : Option String) :
    (∀ stored resourceVersion turns before after, (before,after) ∈ (ClientStore.flushed isEqual dates inactiveAfterDays kind
        activity turns ⟨stored,resourceVersion,[]⟩).written → (Framed before after ↔ Reproduced kind before)) ∧
    ∀ resource resourceVersion times, Left kind resource (after answerAtOnce
      (flushClient isEqual dates inactiveAfterDays kind activity) times ⟨some resource,resourceVersion,[]⟩) := by
  constructor
  · intro stored resourceVersion turns
    have begins : Honest kind ⟨stored,resourceVersion,[]⟩ := fun before after inside => absurd inside List.not_mem_nil
    exact aloneRun (flushHonest begins) (disciplinedTrivial _ turns _)
  · exact fun resource resourceVersion times =>
      aloneRun (flushExact tells resourceVersion []) (disciplinedTrivial _ times _)

end Exactness

section Inputs

def plainEqual : Option Json → Option Json → Bool
  | none, none | some .null, some .null => true
  | some (.string a), some (.string b) => a = b
  | some (.array a), some (.array b) => a.all (·.string?.isSome) && a.map Json.string? = b.map Json.string?
  | _, _ => false

def fieldsEqual (a b : Object) : Bool := (a ++ b).all fun field => plainEqual (a.get field.1) (b.get field.1)

theorem textSame {a b : Json} (text : a.string?.isSome = true) (same : a.string? = b.string?) : a = b := by
  obtain ⟨value,here⟩ := Option.isSome_iff_exists.mp text
  have there := same.symm.trans here
  cases a <;> cases b <;> simp_all [Json.string?]

theorem textsSame {a b : List Json} (texts : ∀ item ∈ a, item.string?.isSome = true)
    (same : a.map Json.string? = b.map Json.string?) : a = b := by
  induction a generalizing b with
  | nil => exact (List.map_eq_nil_iff.mp same.symm).symm
  | cons head rest ih =>
      obtain ⟨other,others,rfl,first,later⟩ := List.map_eq_cons_iff.mp same.symm
      rw [textSame (texts head List.mem_cons_self) first.symm,
        ih (fun item inside => texts item (List.mem_cons_of_mem _ inside)) later.symm]

theorem plainSame {a : Option Json} {b : Json} (same : plainEqual a (some b) = true) : a = some b := by
  unfold plainEqual at same
  split at same
  · rename_i none
    cases none
  · rename_i null
    exact null.symm
  · rename_i a b' text
    rw [of_decide_eq_true same]
    exact text.symm
  · rename_i xs ys list
    obtain ⟨texts,same⟩ := Bool.and_eq_true_iff.mp same
    rw [textsSame (fun item inside => List.all_eq_true.mp texts item inside) (of_decide_eq_true same)]
    exact list.symm
  · cases same

theorem fieldsTell : Tells fieldsEqual where
  plain a b key value same there _ := by
    refine plainSame ?_
    rw [← there]
    unfold Object.get at there
    obtain ⟨field,found,-⟩ := Option.map_eq_some_iff.mp there
    have here : field.1 = key := by simpa using List.find?_some found
    have inside := List.mem_append_right a (List.mem_of_find?_eq_some found)
    exact here ▸ List.all_eq_true.mp same field inside

def signInDates : Dates where
  instant value := if value.string? = some "2026-08-05T11:30:00.000Z" then some 1785929400000 else none
  toISOString _ := "2026-08-05T12:00:00.000Z"

def grafana (ingressRef : Option String) (fields : Object) (valid : wellFormed fields = true) : ClientResource where
  creationTimestamp := some "2026-01-01T00:00:00Z"
  ingressRef := ingressRef
  status := some ⟨fields,valid⟩

def resolvedGrafana : ClientResource := grafana (some "grafana") [("instance",.string "test"),
  ("resolvedUri",.string "https://grafana.example.com/"),
  ("resolvedRedirectUris",.array [.string "https://grafana.example.com/login/generic_oauth"])] (by decide)

def signedIn (resource : ClientResource) : ClientStore := after answerAtOnce
  (flushClient fieldsEqual signInDates 90 .oidcClient (some "2026-08-05T11:30:00.000Z")) [0,1785931200000] ⟨some resource,0,[]⟩

/- What the Ingress resolved to is gone. -/
theorem resolutionLost : ¬ ∀ (isEqual : Object → Object → Bool), Tells isEqual → ∀ dates inactiveAfterDays kind activity
    (resource : ClientResource) name, resource.fields.get "instance" = some (.string name) → name ≠ "" →
    ∀ resourceVersion times last, (after answerAtOnce (flushClient isEqual dates inactiveAfterDays kind activity) times
      ⟨some resource,resourceVersion,[]⟩).resource = some last → Framed resource last := by
  intro always
  obtain ⟨last,here⟩ : ∃ last, (signedIn resolvedGrafana).resource = some last := Option.isSome_iff_exists.mp (by decide +kernel)
  have framed := always fieldsEqual fieldsTell signInDates 90 .oidcClient (some "2026-08-05T11:30:00.000Z") resolvedGrafana
    "test" rfl (by decide) 0 [0,1785931200000] last here
  have gone : ((signedIn resolvedGrafana).resource.bind fun last => last.fields.get "resolvedUri").isNone = true := by
    decide +kernel
  rw [here] at gone
  have gone : last.fields.get "resolvedUri" = none := Option.isNone_iff_eq_none.mp gone
  have kept := framed.fields "resolvedUri" (by decide) (by decide)
  rw [gone] at kept
  cases kept

def ownGrafana : ClientResource := grafana none [("instance",.string "test")] (by decide)

theorem ownKept : ∃ last, (signedIn ownGrafana).resource = some last ∧ Framed ownGrafana last := by
  obtain ⟨last,here,framed⟩ := (activityFlush fieldsTell signInDates 90 .oidcClient (some "2026-08-05T11:30:00.000Z")).2
    ownGrafana 0 [0,1785931200000]
  exact ⟨last,here,framed.mpr fun takes => absurd takes.2 (by decide)⟩

end Inputs

end ActivityFlush
end Passmower
