import Passmower.IdentityIntegrity
import Passmower.Passkeys
import Passmower.Rounds

/-! The status of an OIDCUser is computed from its spec and from the status itself. What a second computation makes of
the first, and a second reconcile of the conditions on email addresses of the first. -/
namespace Passmower
open JavaScript Resumption Program

def jsonObject (fields : List (String × Option Json)) : Object :=
  fields.filterMap fun field => field.2.map fun value => (field.1,value)

def textAt (key : String) (fields : Object) : Option String := (fields.get key).bind Json.string?

structure StoredStatus where
  primaryEmail : Option String := none
  emails : List String := []
  groups : List Group := []
  profile : Profile := {}
  slackId : Option String := none
  passkeyCount : Nat := 0
  conditions : List Object := []
  termsOfService : Option Object := none
  recentApplications : List Object := []
  emailVerifications : List Object := []

structure StoredUser extends Specs where
  accountId : String
  creationTimestamp : Option Nat := none
  spec : AdminSpec := {}
  status : StoredStatus := {}

def VerificationStatus.text : VerificationStatus → String
  | .verified => "verified"
  | .unverified => "unverified"
  | .unknown => "unknown"

def EmailEvidence.json (item : EmailEvidence) : Object := jsonObject [
  ("email",item.email.map .string),
  ("status",some (.string item.status.text)),
  ("method",some (.string item.method.text)),
  ("provider",some (.string item.provider)),
  ("verifiedAt",item.verifiedAt.map .string),
  ("observedAt",(truthy item.observedAt).map .string)]

def Condition.json (condition : Condition) : Object := jsonObject [
  ("type",some (.string condition.type)),
  ("status",some (.string condition.status)),
  ("lastTransitionTime",condition.lastTransitionTime.map .string)]

def Acceptance.json (acceptance : Acceptance) : Object := [
  ("acceptedAt",(acceptance.acceptedAt.map Json.string).getD .null),
  ("contentHash",(acceptance.contentHash.map Json.string).getD .null)]

def RecentApplication.json (application : RecentApplication) : Object := [
  ("clientId",.string application.clientId),
  ("lastAuthenticatedAt",.string application.lastAuthenticatedAt)]

def jsonEvidenceKey (item : Object) : String :=
  evidenceKey (textOf (item.get "email")) (textOf (item.get "method")) (textOf (item.get "provider"))

namespace StoredUser
variable (env : Env) (user : StoredUser)

def account : OidcUser := {user.toSpecs with
  accountId := user.accountId, creationTimestamp := user.creationTimestamp, spec := user.spec}

def canonicalItem (item : Object) : Object := match canonicalizeEmail env (textAt "email" item) with
  | some email => mapSet "email" (.string email) item
  | none => item.delete "email"

def isMagicLink (item : Object) : Bool := textAt "method" item = some "magic-link"

def magicLinkEvidence : List Object :=
  (user.status.emailVerifications.filter isMagicLink).map (canonicalItem env)

def providerEvidence : List Object := (user.account.githubEvidence env ++
  user.account.identityEntries.flatMap (fun entry => OidcUser.identityEvidence env entry.1 entry.2)).map EmailEvidence.json

def getEmailVerifications : List Object :=
  uniqueBy jsonEvidenceKey (user.magicLinkEvidence env ++ user.providerEvidence env)

def isLegacyAcceptance (condition : Object) : Bool :=
  textAt "type" condition = some "ToSv1" ∧ textAt "status" condition = some "True"

def getTermsOfServiceAcceptance : Option Object := match user.status.termsOfService with
  | some acceptance => some acceptance
  | none => (user.status.conditions.find? isLegacyAcceptance).map fun legacy =>
      [("acceptedAt",(given (legacy.get "lastTransitionTime")).getD .null),("contentHash",.null)]

def withBaseline (acceptance : Object) : Object := match acceptance.get "contentHash", env.termsOfService with
  | some .null, some contentHash => mapSet "contentHash" (.string contentHash) acceptance
  | _, _ => acceptance

def getIntendedTermsOfServiceAcceptance : Option Object := user.getTermsOfServiceAcceptance.map (withBaseline env)

def getIntendedStatus : StoredStatus where
  primaryEmail := user.account.intendedPrimaryEmail env
  emails := user.account.intendedEmails env
  groups := user.account.intendedGroups
  profile := user.account.intendedProfile
  slackId := user.slackId
  passkeyCount := user.passkeys.length
  conditions := user.status.conditions.filter (fun condition => textAt "type" condition ≠ some "ToSv1")
  termsOfService := user.getIntendedTermsOfServiceAcceptance env
  recentApplications := user.status.recentApplications
  emailVerifications := user.getEmailVerifications env

def restated : StoredUser := {user with status := user.getIntendedStatus env}

def getConditions : List Object := user.status.conditions

def setConditions (conditions : List Object) : StoredUser := {user with status := {user.status with conditions := conditions}}

end StoredUser

section Objects
variable {o : Object} {key key' : String} {value : Json}

theorem getMapped (o : Object) (key : String) : o.get key = mapGet key o := by
  induction o with
  | nil => rfl
  | cons field rest ih =>
      by_cases here : field.1 = key
      · simp [Object.get,mapGet,here]
      · have other : (field.1 == key) = false := by simpa using here
        simp only [Object.get,List.find?_cons,other,mapGet,if_neg here]
        exact ih

@[simp] theorem getMapSet : Object.get (mapSet key value o) key' = if key = key' then some value else o.get key' := by
  rw [getMapped,getMapped,mapGetSet]

@[simp] theorem getDeleted : (o.delete key).get key' = if key = key' then none else o.get key' := by
  induction o with
  | nil => simp [Object.delete,Object.get]
  | cons field rest ih =>
      simp only [getMapped,Object.delete] at ih ⊢
      by_cases here : field.1 = key
      · rw [List.filter_cons_of_neg (by simp [here]),ih]
        by_cases same : key = key'
        · simp [same]
        · simp [mapGet,here,same]
      · rw [List.filter_cons_of_pos (by simpa using here)]
        by_cases other : field.1 = key'
        · have apart : key ≠ key' := fun same => here (other.trans same.symm)
          simp [mapGet,other,apart]
        · simp [mapGet,other,ih]

@[simp] theorem getJsonNil (key : String) : (jsonObject []).get key = none := rfl

@[simp] theorem getJsonCons (field : String × Option Json) (rest : List (String × Option Json)) (key : String) :
    (jsonObject (field :: rest)).get key =
      if field.1 = key then field.2.or ((jsonObject rest).get key) else (jsonObject rest).get key := by
  obtain ⟨name,value⟩ := field
  cases value with
  | none => simp [jsonObject]
  | some value =>
      have first : jsonObject ((name,some value) :: rest) = (name,value) :: jsonObject rest := rfl
      rw [first,getMapped,getMapped]
      by_cases here : name = key
      · simp [mapGet,here]
      · simp [mapGet,here]

theorem mapSetTwice : mapSet key value (mapSet key value o) = mapSet key value o := by
  induction o with
  | nil => simp [mapSet]
  | cons field rest ih =>
      by_cases here : field.1 = key
      · simp [mapSet,here]
      · simp [mapSet,here,ih]

theorem deleteTwice : (o.delete key).delete key = o.delete key := by
  simp [Object.delete]

end Objects

theorem evidenceKeyTexts (email method provider : String) : (evidenceKey email method provider).toList =
    email.toList ++ Char.ofNat 0 :: (method.toList ++ Char.ofNat 0 :: provider.toList) := by
  have joined : evidenceKey email method provider = email ++ "\x00" ++ method ++ "\x00" ++ provider := rfl
  simp [joined]

namespace StoredUser
variable {env : Env} {user : StoredUser} {item : Object}

/- `canonicalizeEmail` is idempotent on the addresses of the stored evidence. -/
def Canonical (env : Env) (user : StoredUser) : Prop :=
  ∀ item ∈ user.status.emailVerifications, isMagicLink item = true → ∀ email,
    canonicalizeEmail env (textAt "email" item) = some email → canonicalizeEmail env (some email) = some email

theorem canonicalEmail : textAt "email" (canonicalItem env item) = canonicalizeEmail env (textAt "email" item) := by
  unfold canonicalItem
  split
  · rename_i email canonical
    simp [textAt,Json.string?]
    exact canonical.symm
  · rename_i none
    simp [textAt]
    exact none.symm

theorem canonicalOther {key : String} (other : key ≠ "email") : (canonicalItem env item).get key = item.get key := by
  unfold canonicalItem
  split
  · simp [other.symm]
  · simp [other.symm]

theorem canonicalTwice (stays : ∀ email, canonicalizeEmail env (textAt "email" item) = some email →
    canonicalizeEmail env (some email) = some email) : canonicalItem env (canonicalItem env item) = canonicalItem env item := by
  cases here : canonicalizeEmail env (textAt "email" item) with
  | some email =>
      have again : canonicalizeEmail env (textAt "email" (canonicalItem env item)) = some email := by
        rw [canonicalEmail,here,stays email here]
      have first : canonicalItem env item = mapSet "email" (.string email) item := by simp [canonicalItem,here]
      rw [canonicalItem,again,first]
      exact mapSetTwice
  | none =>
      have again : canonicalizeEmail env (textAt "email" (canonicalItem env item)) = none := by
        rw [canonicalEmail,here]
        rfl
      have first : canonicalItem env item = item.delete "email" := by simp [canonicalItem,here]
      rw [canonicalItem,again,first]
      exact deleteTwice

theorem magicStays : isMagicLink (canonicalItem env item) = isMagicLink item := by
  unfold isMagicLink textAt
  rw [canonicalOther (by decide)]

theorem ownMagic : ∀ item ∈ user.magicLinkEvidence env, isMagicLink item = true := by
  intro item inside
  obtain ⟨stored,listed,rfl⟩ := List.mem_map.mp inside
  rw [magicStays]
  exact (List.mem_filter.mp listed).2

theorem evidenceMethod (item : EmailEvidence) : textAt "method" item.json = some item.method.text := by
  simp [textAt,EmailEvidence.json,Json.string?]

theorem githubMethod : ∀ item ∈ user.account.githubEvidence env, item.method = .githubApi := by
  intro item inside
  obtain ⟨stored,_,made⟩ := List.mem_filterMap.mp inside
  obtain ⟨email,_,made⟩ := Option.bind_eq_some_iff.mp made
  cases Option.some.inj made
  rfl

theorem identityMethod {provider : String} {identity : UpstreamIdentity} :
    ∀ item ∈ OidcUser.identityEvidence env provider identity, item.method ≠ .magicLink := by
  intro item inside
  unfold OidcUser.identityEvidence at inside
  split at inside
  · cases inside
  · obtain ⟨stored,_,made⟩ := List.mem_filterMap.mp inside
    obtain ⟨email,_,made⟩ := Option.bind_eq_some_iff.mp made
    cases Option.some.inj made
    simp only
    split
    · decide
    · decide

theorem providerNoMagic : ∀ item ∈ user.providerEvidence env, isMagicLink item = false := by
  intro item inside
  obtain ⟨evidence,listed,rfl⟩ := List.mem_map.mp inside
  have other : evidence.method ≠ .magicLink := by
    rcases List.mem_append.mp listed with github | identity
    · rw [githubMethod _ github]
      decide
    · obtain ⟨entry,_,inside⟩ := List.mem_flatMap.mp identity
      exact identityMethod _ inside
  unfold isMagicLink
  rw [evidenceMethod]
  cases method : evidence.method with
  | magicLink => exact absurd method other
  | githubApi => rfl
  | operatorTrust => rfl
  | oidcClaim => rfl

theorem keptCanonical (canonical : Canonical env user) :
    ∀ item ∈ user.getEmailVerifications env, isMagicLink item = true → canonicalItem env item = item := by
  intro item inside magic
  rcases List.mem_append.mp (uniqueByMember inside) with own | other
  · obtain ⟨stored,listed,rfl⟩ := List.mem_map.mp own
    obtain ⟨listed,magic⟩ := List.mem_filter.mp listed
    exact canonicalTwice (canonical stored listed magic)
  · rw [providerNoMagic item other] at magic
    cases magic

theorem restatedMagic (canonical : Canonical env user) :
    (user.restated env).magicLinkEvidence env = (user.getEmailVerifications env).filter isMagicLink := by
  have same : ((user.getEmailVerifications env).filter isMagicLink).map (canonicalItem env) =
      ((user.getEmailVerifications env).filter isMagicLink).map id :=
    List.map_congr_left fun item inside =>
      keptCanonical canonical item (List.mem_filter.mp inside).1 (List.mem_filter.mp inside).2
  rw [List.map_id] at same
  exact same

theorem restatedCanonical (canonical : Canonical env user) : Canonical env (user.restated env) := by
  intro item inside magic email spelled
  have fixed := keptCanonical canonical item inside magic
  have own : textAt "email" item = some email := by rw [← fixed,canonicalEmail,spelled]
  rw [← own,spelled,own]

theorem restatedEvidence (canonical : Canonical env user) : (user.restated env).getEmailVerifications env =
    uniqueBy jsonEvidenceKey ((user.getEmailVerifications env).filter isMagicLink ++ user.providerEvidence env) := by
  rw [getEmailVerifications,restatedMagic canonical]
  rfl

theorem baselineTwice (acceptance : Object) : withBaseline env (withBaseline env acceptance) = withBaseline env acceptance := by
  cases document : env.termsOfService with
  | none => simp [withBaseline,document]
  | some contentHash =>
      by_cases null : acceptance.get "contentHash" = some .null
      · simp [withBaseline,document,null]
      · have same : withBaseline env acceptance = acceptance := by
          unfold withBaseline
          split
          · rename_i taken _
            exact absurd taken null
          · rfl
        rw [same,same]

theorem restatedAcceptance :
    (user.restated env).getIntendedTermsOfServiceAcceptance env = user.getIntendedTermsOfServiceAcceptance env := by
  have noLegacy : (user.restated env).status.conditions.find? isLegacyAcceptance = none := by
    refine List.find?_eq_none.mpr fun condition inside legacy => ?_
    have kept := (List.mem_filter.mp inside).2
    simp only [isLegacyAcceptance,decide_eq_true_eq] at legacy
    simp [legacy.1] at kept
  have taken : (user.restated env).getTermsOfServiceAcceptance = user.getIntendedTermsOfServiceAcceptance env := by
    unfold getTermsOfServiceAcceptance
    rw [noLegacy]
    show (match user.getIntendedTermsOfServiceAcceptance env with
      | some acceptance => some acceptance
      | none => none) = _
    cases user.getIntendedTermsOfServiceAcceptance env <;> rfl
  rw [getIntendedTermsOfServiceAcceptance,taken,getIntendedTermsOfServiceAcceptance,Option.map_map]
  exact congrFun (congrArg Option.map (funext baselineTwice)) _

theorem restatedElse : (user.restated env).getIntendedStatus env =
    {user.getIntendedStatus env with emailVerifications := (user.restated env).getEmailVerifications env} := by
  have conditions : (user.restated env).status.conditions.filter (fun condition => textAt "type" condition ≠ some "ToSv1") =
      user.status.conditions.filter (fun condition => textAt "type" condition ≠ some "ToSv1") := by
    show List.filter _ (List.filter _ _) = _
    rw [List.filter_filter]
    simp
  unfold getIntendedStatus
  rw [conditions,restatedAcceptance]
  rfl

theorem statusSame : (user.restated env).getIntendedStatus env = user.getIntendedStatus env ↔
    (user.restated env).getEmailVerifications env = user.getEmailVerifications env := by
  rw [restatedElse]
  constructor
  · exact fun same => congrArg StoredStatus.emailVerifications same
  · exact fun same => congrArg (fun evidence => {user.getIntendedStatus env with emailVerifications := evidence}) same

theorem statusFixed (canonical : Canonical env user) :
    (user.restated env).getIntendedStatus env = user.getIntendedStatus env ↔
      SharedLast (keysOf jsonEvidenceKey (user.magicLinkEvidence env)) (keysOf jsonEvidenceKey (user.providerEvidence env)) := by
  rw [statusSame,restatedEvidence canonical]
  exact nextRound ownMagic providerNoMagic

def Plain (env : Env) (user : StoredUser) : Prop :=
  ∀ item ∈ user.magicLinkEvidence env ++ user.providerEvidence env, Char.ofNat 0 ∉ (textOf (item.get "email")).toList

theorem keysApart {email email' provider provider' : String} {method : VerificationMethod}
    (plain : Char.ofNat 0 ∉ email.toList) (plain' : Char.ofNat 0 ∉ email'.toList) (other : method ≠ .magicLink) :
    evidenceKey email "magic-link" provider ≠ evidenceKey email' method.text provider' := by
  intro same
  have later := congrArg String.toList same
  rw [evidenceKeyTexts,evidenceKeyTexts] at later
  have methods := (untilSeparator plain plain' later).2
  cases method with
  | magicLink => exact other rfl
  | githubApi => exact absurd (untilSeparator (by decide) (by decide) methods).1 (by decide)
  | operatorTrust => exact absurd (untilSeparator (by decide) (by decide) methods).1 (by decide)
  | oidcClaim => exact absurd (untilSeparator (by decide) (by decide) methods).1 (by decide)

theorem textOfAt {o : Object} {key text : String} (told : textAt key o = some text) : textOf (o.get key) = text := by
  obtain ⟨value,here,string⟩ := Option.bind_eq_some_iff.mp told
  cases value with
  | string written =>
      rw [here]
      exact Option.some.inj string
  | _ => cases string

theorem plainFixed (canonical : Canonical env user) (plain : Plain env user) :
    (user.restated env).getIntendedStatus env = user.getIntendedStatus env := by
  refine (statusFixed canonical).mpr ⟨_,[],_,(List.append_nil _).symm,(List.nil_append _).symm,fun key own other => ?_⟩
  obtain ⟨item,inside,rfl⟩ := List.mem_map.mp (keysMember.mp own)
  obtain ⟨said,listed,same⟩ := List.mem_map.mp (keysMember.mp other)
  have magic := ownMagic item inside
  have first := plain item (List.mem_append_left _ inside)
  have second := plain said (List.mem_append_right _ listed)
  have noMagic := providerNoMagic said listed
  obtain ⟨evidence,_,rfl⟩ := List.mem_map.mp listed
  have method : evidence.method ≠ .magicLink := by
    intro magic
    rw [isMagicLink,evidenceMethod,magic] at noMagic
    exact absurd noMagic (by decide)
  simp only [isMagicLink,decide_eq_true_eq] at magic
  simp only [jsonEvidenceKey,textOfAt magic,textOfAt (evidenceMethod evidence)] at same
  exact keysApart first second method same.symm

theorem secondFixed (canonical : Canonical env user) :
    ((user.restated env).restated env).getIntendedStatus env = (user.restated env).getIntendedStatus env := by
  rw [statusSame,restatedEvidence (restatedCanonical canonical),restatedEvidence canonical]
  exact roundAfter ownMagic providerNoMagic

end StoredUser
def Status.json (status : Status) : StoredStatus where
  primaryEmail := status.primaryEmail
  emails := status.emails
  groups := status.groups
  profile := status.profile
  slackId := status.slackId
  passkeyCount := status.passkeyCount
  conditions := status.conditions.map Condition.json
  termsOfService := status.termsOfService.map Acceptance.json
  recentApplications := status.recentApplications.map RecentApplication.json
  emailVerifications := status.emailVerifications.map EmailEvidence.json

def OidcUser.stored (user : OidcUser) : StoredUser := {user.toSpecs with
  accountId := user.accountId, creationTimestamp := user.creationTimestamp, spec := user.spec, status := user.status.json}

section Memory
variable {env : Env} {user : OidcUser}

theorem evidenceEmail (item : EmailEvidence) : item.json.get "email" = item.email.map .string := by
  simp [EmailEvidence.json]

theorem evidenceKeyJson (item : EmailEvidence) : jsonEvidenceKey item.json = item.key := by
  unfold jsonEvidenceKey EmailEvidence.key
  rw [evidenceEmail]
  cases item.email <;> simp [EmailEvidence.json,textOf]

theorem canonicalJson (item : EmailEvidence) : StoredUser.canonicalItem env item.json =
    EmailEvidence.json {item with email := canonicalizeEmail env item.email} := by
  have text : textAt "email" item.json = item.email := by
    rw [textAt,evidenceEmail]
    cases item.email <;> rfl
  unfold StoredUser.canonicalItem
  rw [text]
  cases canonical : canonicalizeEmail env item.email with
  | none =>
      cases address : item.email <;> cases verified : item.verifiedAt <;> cases observed : truthy item.observedAt <;>
        simp [EmailEvidence.json,jsonObject,Object.delete,address,verified,observed]
  | some email =>
      obtain ⟨written,address,_⟩ := Option.bind_eq_some_iff.mp canonical
      simp [EmailEvidence.json,jsonObject,mapSet,address]

theorem magicJson (item : EmailEvidence) : StoredUser.isMagicLink item.json = decide (item.method = .magicLink) := by
  unfold StoredUser.isMagicLink
  rw [StoredUser.evidenceMethod]
  cases item.method <;> rfl

theorem verificationsJson : user.stored.getEmailVerifications env =
    (user.getEmailVerifications env).map EmailEvidence.json := by
  have chosen : StoredUser.isMagicLink ∘ EmailEvidence.json = fun item => decide (item.method = .magicLink) :=
    funext magicJson
  have magic : user.stored.magicLinkEvidence env = (user.magicLinkEvidence env).map EmailEvidence.json := by
    show ((user.status.emailVerifications.map EmailEvidence.json).filter StoredUser.isMagicLink).map
      (StoredUser.canonicalItem env) = _
    rw [List.filter_map,chosen,OidcUser.magicLinkEvidence,List.map_map,List.map_map]
    exact List.map_congr_left fun item _ => canonicalJson item
  rw [StoredUser.getEmailVerifications,magic,OidcUser.getEmailVerifications,List.append_assoc,← uniqueByMapped evidenceKeyJson,
    List.map_append]
  rfl

theorem acceptanceJson : user.stored.getIntendedTermsOfServiceAcceptance env =
    (user.getIntendedTermsOfServiceAcceptance env).map Acceptance.json := by
  have legacy : StoredUser.isLegacyAcceptance ∘ Condition.json = fun c => decide (c.type = "ToSv1" ∧ c.status = "True") := by
    funext condition
    simp [StoredUser.isLegacyAcceptance,Condition.json,textAt,Json.string?]
  have taken : user.stored.getTermsOfServiceAcceptance = user.getTermsOfServiceAcceptance.map Acceptance.json := by
    show (match user.status.termsOfService.map Acceptance.json with
      | some acceptance => some acceptance
      | none => ((user.status.conditions.map Condition.json).find? StoredUser.isLegacyAcceptance).map fun legacy =>
          [("acceptedAt",(given (Object.get legacy "lastTransitionTime")).getD .null),("contentHash",.null)]) = _
    cases held : user.status.termsOfService with
    | some acceptance => simp [OidcUser.getTermsOfServiceAcceptance,held]
    | none =>
        simp only [OidcUser.getTermsOfServiceAcceptance,held,Option.map_none,List.find?_map,legacy,Option.map_map]
        congr 1
        funext condition
        cases time : condition.lastTransitionTime <;> simp [Condition.json,Acceptance.json,given,time]
  rw [StoredUser.getIntendedTermsOfServiceAcceptance,taken]
  cases held : user.getTermsOfServiceAcceptance with
  | none => simp [OidcUser.getIntendedTermsOfServiceAcceptance,held]
  | some acceptance =>
      cases hash : acceptance.contentHash <;> cases document : env.termsOfService <;>
        simp [OidcUser.getIntendedTermsOfServiceAcceptance,StoredUser.withBaseline,Acceptance.json,Object.get,mapSet,
          held,hash,document]

theorem storedIntended : user.stored.getIntendedStatus env = (user.getIntendedStatus env).json := by
  have others : (fun condition => decide (textAt "type" condition ≠ some "ToSv1")) ∘ Condition.json =
      fun condition => decide (condition.type ≠ "ToSv1") := by
    funext condition
    simp [Condition.json,textAt,Json.string?]
  have conditions : user.stored.status.conditions.filter (fun condition => textAt "type" condition ≠ some "ToSv1") =
      (user.status.conditions.filter fun condition => condition.type ≠ "ToSv1").map Condition.json := by
    show (user.status.conditions.map Condition.json).filter _ = _
    rw [List.filter_map,others]
  unfold StoredUser.getIntendedStatus
  rw [conditions,acceptanceJson,verificationsJson]
  rfl

end Memory
end Passmower
