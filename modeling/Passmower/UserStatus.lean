import Passmower.EmailConditions
import Passmower.StatusMutation

/-! What an OIDCUser's status remembers of logins: that a magic link was opened, and that the Terms of Service were accepted.
Reconciles, logins and activity flushes of any number of pods mutate it at once, and administrators edit the rest of the
account: a mail address that was proved stays proved, and an acceptance stays the one that was made last. -/
namespace JavaScript

mutual

/- Lodash's `isEqual` of JSON values; an object has each key once. -/
def Json.isEqual : Json → Json → Bool
  | .null,.null => true
  | .bool a,.bool b => a == b
  | .number a,.number b => a == b
  | .string a,.string b => a == b
  | .array items,.array others => itemsEqual items others
  | .object fields,.object others => fieldsWithin fields others && others.all fun field => (Object.get fields field.1).isSome
  | _,_ => false
termination_by structural a => a

def itemsEqual : List Json → List Json → Bool
  | [],[] => true
  | item :: items,other :: others => item.isEqual other && itemsEqual items others
  | _,_ => false
termination_by structural a => a

def fieldsWithin : List (String × Json) → Object → Bool
  | [],_ => true
  | field :: rest,others => fieldEqual field others && fieldsWithin rest others
termination_by structural a => a

def fieldEqual : String × Json → Object → Bool
  | (key,value),others => match others.get key with
    | some other => value.isEqual other
    | none => false
termination_by structural a => a

end

def TextsSame (a b : Object) : Prop := ∀ key, Passmower.textAt key a = Passmower.textAt key b

theorem equalText {a b : Json} (same : a.isEqual b = true) : a.string? = b.string? := by
  cases a <;> cases b <;> simp_all [Json.isEqual,Json.string?]

theorem fieldsTold {fields others : Object} {key : String} {value : Json} (within : fieldsWithin fields others = true)
    (here : fields.get key = some value) : ∃ other, others.get key = some other ∧ value.isEqual other = true := by
  induction fields with
  | nil => cases here
  | cons field rest ih =>
      obtain ⟨first,later⟩ := Bool.and_eq_true_iff.mp within
      by_cases same : field.1 = key
      · have value_ : field.2 = value := by simpa [Object.get,same] using here
        obtain ⟨name,held⟩ := field
        cases same
        cases value_
        simp only [fieldEqual] at first
        split at first
        · rename_i other found
          exact ⟨other,found,first⟩
        · cases first
      · have other : (field.1 == key) = false := by simpa using same
        refine ih later ?_
        simpa [Object.get,other] using here

theorem equalTexts {a b : Object} (same : (Json.object a).isEqual (.object b) = true) : TextsSame a b := by
  intro key
  obtain ⟨within,present⟩ := Bool.and_eq_true_iff.mp same
  cases here : a.get key with
  | some value =>
      obtain ⟨other,found,equal⟩ := fieldsTold within here
      simp only [Passmower.textAt,here,found]
      exact equalText equal
  | none =>
      cases found : b.get key with
      | none => simp [Passmower.textAt,here,found]
      | some other =>
          obtain ⟨field,first,_⟩ := Option.map_eq_some_iff.mp found
          have named : field.1 = key := by simpa using List.find?_some first
          have some := List.all_eq_true.mp present field (List.mem_of_find?_eq_some first)
          rw [named,here] at some
          cases some

theorem itemsTexts {items others : List Object} (same : itemsEqual (items.map .object) (others.map .object) = true) :
    List.Forall₂ TextsSame items others := by
  induction items generalizing others with
  | nil =>
      cases others with
      | nil => exact .nil
      | cons other rest => cases same
  | cons item items ih =>
      cases others with
      | nil => cases same
      | cons other rest =>
          obtain ⟨first,later⟩ := Bool.and_eq_true_iff.mp same
          exact .cons (equalTexts first) (ih later)

end JavaScript

namespace Passmower
open JavaScript

structure StoredStatus.Same (a b : StoredStatus) : Prop where
  verifications : List.Forall₂ TextsSame a.emailVerifications b.emailVerifications
  acceptance : Option.Rel TextsSame a.termsOfService b.termsOfService

def optionEqual : Option Object → Option Object → Bool
  | none,none => true
  | some a,some b => (Json.object a).isEqual (.object b)
  | _,_ => false

def StoredStatus.isEqual (a b : StoredStatus) : Bool :=
  a.primaryEmail = b.primaryEmail ∧ a.emails = b.emails ∧ a.groups = b.groups ∧ a.profile = b.profile ∧
    a.slackId = b.slackId ∧ a.passkeyCount = b.passkeyCount ∧
    itemsEqual (a.conditions.map .object) (b.conditions.map .object) = true ∧
    optionEqual a.termsOfService b.termsOfService = true ∧
    itemsEqual (a.recentApplications.map .object) (b.recentApplications.map .object) = true ∧
    itemsEqual (a.emailVerifications.map .object) (b.emailVerifications.map .object) = true

theorem statusesSame {a b : StoredStatus} (same : a.isEqual b = true) : a.Same b := by
  obtain ⟨_,_,_,_,_,_,_,acceptance,_,verifications⟩ := of_decide_eq_true same
  refine ⟨itemsTexts verifications,?_⟩
  cases accepted : a.termsOfService <;> cases accepted' : b.termsOfService <;>
    simp only [accepted,accepted',optionEqual,Bool.false_eq_true] at acceptance
  · exact .none
  · exact .some (equalTexts acceptance)

namespace StoredUser
variable (env : Env) (user : StoredUser)

def getClaimedEmails : List String := user.account.getClaimedEmails env

def verifiedFor (email : String) : Bool := (user.getEmailVerifications env).any fun item =>
  textAt "email" item = some email ∧ textAt "status" item = some "verified"

def isEmailLinkable (address : Option String) : Bool := match canonicalizeEmail env address with
  | none => false
  | some email =>
      if email ∉ user.getClaimedEmails env then false
      else if user.verifiedFor env email then true
      else if [user.spec.email,user.spec.companyEmail].any (mappedEmail env · = some email) then true
      else !user.account.identityEmails.any (fun item => canonicalizeEmail env item.email = some email)

def isPrimaryEmailVerified : Bool := match canonicalizeEmail env user.status.primaryEmail with
  | none => false
  | some primaryEmail => user.verifiedFor env primaryEmail

def verification (email method provider verifiedAt : String) : Object := jsonObject [
  ("email",some (.string email)),
  ("status",some (.string "verified")),
  ("method",some (.string method)),
  ("provider",some (.string provider)),
  ("verifiedAt",some (.string verifiedAt))]

def verifyEmail (address : Option String) (method provider verifiedAt : String) : StoredUser :=
  match canonicalizeEmail env address with
  | none => user
  | some email =>
      if email ∉ user.getClaimedEmails env then user
      else {user with status := {user.status with
        emailVerifications := user.status.emailVerifications.filter (fun item =>
            ¬ (canonicalizeEmail env (textAt "email" item) = some email ∧ textAt "method" item = some method ∧
              textAt "provider" item = some provider)) ++
          [verification email method provider verifiedAt]}}

def acceptTermsOfService (contentHash acceptedAt : String) : StoredUser := {user with status := {user.status with
  termsOfService := some [("acceptedAt",.string acceptedAt),("contentHash",.string contentHash)]
  conditions := user.status.conditions.filter (fun condition => textAt "type" condition ≠ some "ToSv1")}}

def addCondition (condition : Condition) : StoredUser := user.setConditions (user.getConditions ++ [condition.json])

def setRecentApplications (recentApplications : List Object) : StoredUser :=
  {user with status := {user.status with recentApplications := recentApplications}}

def tosRequired (document : Option String) : Bool := match document with
  | none => false
  | some contentHash =>
      if (truthy user.spec.type).any (· ≠ "person") then false
      else match user.getTermsOfServiceAcceptance with
        | none => true
        | some acceptance => match acceptance.get "contentHash" with
            | some .null => false
            | some (.string accepted) => accepted ≠ contentHash
            | _ => true

end StoredUser

inductive UserMutation where
  | reconcileUserStatus
  | recordMagicLinkVerification (email : Option String) (verifiedAt : String)
  | confirmTos (contentHash acceptedAt : String)
  | commitUsername (now : String)
  | reconcileEmail (assessment : EmailAssessment) (now : String)
  | flushUser (merged : List Object → List Object)

def UserMutation.apply (env : Env) (user : StoredUser) : UserMutation → StoredUser
  | .reconcileUserStatus => user
  | .recordMagicLinkVerification email verifiedAt => user.verifyEmail env email "magic-link" "passmower" verifiedAt
  | .confirmTos contentHash acceptedAt => user.acceptTermsOfService contentHash acceptedAt
  | .commitUsername now => user.addCondition ⟨"UsernameCommitted","True",some now⟩
  | .reconcileEmail assessment now => user.withEmailCondition assessment now
  | .flushUser merged => user.setRecentApplications (merged user.status.recentApplications)

abbrev Env.withDocument (env : Env) (document : Option String) : Env := {env with termsOfService := document}

def UserMutation.statusFunction (env : Env) (document : Option String) (mutation : UserMutation) :
    StatusMutation.StatusFunction StoredUser StoredStatus := fun user =>
  .ok ((mutation.apply env user).getIntendedStatus (env.withDocument document))

/- The evidence has the provider's name, as the schema asks, and that of a magic link is verified, as `verifyEmail` writes it. -/
def StoredUser.Schematic (user : StoredUser) : Prop := ∀ item ∈ user.status.emailVerifications,
  (textAt "provider" item).isSome ∧ (StoredUser.isMagicLink item = true → textAt "status" item = some "verified")

structure UserApi where
  isEqual : StoredStatus → StoredStatus → Bool
  tells : ∀ a b, isEqual a b = true → a.Same b
  unchanged : StoredUser → StoredUser → Bool
  unchangedSame : ∀ a b, unchanged a b = true → a = b

/- Others leave the status alone. -/
def UserApi.oidcUser (api : UserApi) : StatusMutation.ResourceKind StoredUser StoredStatus where
  status := StoredUser.status
  withStatus user status := {user with status := status}
  isEqual := api.isEqual
  unchanged := api.unchanged
  unchangedSame := api.unchangedSame
  foreign
    | some before, after => after.status = before.status
    | none, after => after.Schematic

theorem keyParts {email address method provider : String} (plain : Char.ofNat 0 ∉ email.toList)
    (same : evidenceKey address method provider = evidenceKey email "magic-link" "passmower") :
    address = email ∧ method = "magic-link" ∧ provider = "passmower" := by
  have same := congrArg String.toList same
  rw [evidenceKeyTexts,evidenceKeyTexts] at same
  -- The key has two separators, so none of the three texts of the other has one.
  have counted := congrArg (List.count (Char.ofNat 0)) same
  simp only [List.count_append,List.count_cons_self,List.count_eq_zero_of_not_mem plain] at counted
  have magic : List.count (Char.ofNat 0) "magic-link".toList = 0 := by decide
  have passmower : List.count (Char.ofNat 0) "passmower".toList = 0 := by decide
  have address_ : Char.ofNat 0 ∉ address.toList := List.count_eq_zero.mp (by omega)
  have method_ : Char.ofNat 0 ∉ method.toList := List.count_eq_zero.mp (by omega)
  obtain ⟨first,later⟩ := untilSeparator address_ plain same
  obtain ⟨second,third⟩ := untilSeparator method_ (List.count_eq_zero.mp magic) later
  exact ⟨String.toList_inj.mp first,String.toList_inj.mp second,String.toList_inj.mp third⟩

structure IsAddress (env : Env) (email : String) : Prop where
  canonical : canonicalizeEmail env (some email) = some email
  at_sign : '@' ∈ email.toList
  plain : Char.ofNat 0 ∉ email.toList

namespace StoredUser
variable {env : Env} {email : String} {user : StoredUser} {item : Object} {mutation : UserMutation} {document : Option String}

structure IsMagicLinkFor (env : Env) (email : String) (item : Object) : Prop where
  method : isMagicLink item = true
  provider : textAt "provider" item = some "passmower"
  address : canonicalizeEmail env (textAt "email" item) = some email

def Attested (env : Env) (email : String) (status : StoredStatus) : Prop :=
  ∃ item ∈ status.emailVerifications, IsMagicLinkFor env email item

theorem sameMagicLink {a b : Object} (same : TextsSame a b) (magic : IsMagicLinkFor env email b) : IsMagicLinkFor env email a where
  method := by
    rw [← magic.method]
    simp only [isMagicLink,same "method"]
  provider := (same "provider").trans magic.provider
  address := by rw [same "email",magic.address]

theorem sameAttested {a b : StoredStatus} (same : a.Same b) (attested : Attested env email b) : Attested env email a := by
  obtain ⟨item,inside,magic⟩ := attested
  obtain ⟨n,within,found⟩ := List.getElem_of_mem inside
  have lengths := same.verifications.length_eq
  have texts := same.verifications.get (by omega) within
  refine ⟨a.emailVerifications[n],List.getElem_mem _,sameMagicLink texts ?_⟩
  simpa [found] using magic

theorem canonicalMagicLink (address : IsAddress env email) (magic : IsMagicLinkFor env email item) :
    IsMagicLinkFor env email (canonicalItem env item) where
  method := magicStays.trans magic.method
  provider := by
    have same : textAt "provider" (canonicalItem env item) = textAt "provider" item := by
      simp only [textAt,canonicalOther (show "provider" ≠ "email" by decide)]
    exact same.trans magic.provider
  address := by rw [canonicalEmail,magic.address,address.canonical]

theorem magicLinkKey (address : IsAddress env email) (schematic : (textAt "provider" item).isSome)
    (magic : isMagicLink item = true) (same : jsonEvidenceKey (canonicalItem env item) = evidenceKey email "magic-link" "passmower") :
    IsMagicLinkFor env email item := by
  obtain ⟨named,_,provider⟩ := keyParts address.plain same
  refine ⟨magic,?_,?_⟩
  · obtain ⟨text,told⟩ := Option.isSome_iff_exists.mp schematic
    rw [canonicalOther (show "provider" ≠ "email" by decide),textOfAt told] at provider
    rw [told,provider]
  · cases spelled : canonicalizeEmail env (textAt "email" item) with
    | some text =>
        have told : textAt "email" (canonicalItem env item) = some text := canonicalEmail.trans spelled
        rw [textOfAt told] at named
        rw [named]
    | none =>
        have absent : (canonicalItem env item).get "email" = none := by
          simp [canonicalItem,spelled]
        rw [absent] at named
        exact absurd (named ▸ address.at_sign) (by decide)

theorem keyOfMagicLink (magic : IsMagicLinkFor env email item) :
    jsonEvidenceKey (canonicalItem env item) = evidenceKey email "magic-link" "passmower" := by
  have told : textAt "email" (canonicalItem env item) = some email := canonicalEmail.trans magic.address
  have method : textAt "method" item = some "magic-link" := by simpa [isMagicLink] using magic.method
  unfold jsonEvidenceKey
  rw [textOfAt told,canonicalOther (by decide),canonicalOther (by decide),textOfAt method,textOfAt magic.provider]

theorem intendedMagicLink (address : IsAddress env email) (schematic : user.Schematic) (attested : Attested env email user.status) :
    ∃ item ∈ user.getEmailVerifications (env.withDocument document),
      IsMagicLinkFor env email item ∧ textAt "email" item = some email := by
  obtain ⟨item,inside,magic⟩ := attested
  have own : canonicalItem env item ∈ user.magicLinkEvidence env :=
    List.mem_map_of_mem (List.mem_filter.mpr ⟨inside,magic.method⟩)
  obtain ⟨last,found⟩ := lastFound (List.mem_map_of_mem (f := jsonEvidenceKey)
    (List.mem_append_left (user.providerEvidence env) own))
  rw [keyOfMagicLink magic] at found
  obtain ⟨listed,key⟩ := lastSome found
  have entry := mapGetMember (mapFound.trans found)
  refine ⟨last,List.mem_map_of_mem (f := Prod.snd) entry,?_⟩
  rcases List.mem_append.mp listed with own | other
  · obtain ⟨stored,kept,rfl⟩ := List.mem_map.mp own
    obtain ⟨kept,magic⟩ := List.mem_filter.mp kept
    have link := magicLinkKey address (schematic stored kept).1 magic key
    exact ⟨canonicalMagicLink address link,canonicalEmail.trans link.address⟩
  · have noMagic := providerNoMagic last other
    obtain ⟨evidence,_,rfl⟩ := List.mem_map.mp other
    have method := (keyParts address.plain key).2.1
    rw [textOfAt (evidenceMethod evidence)] at method
    simp [isMagicLink,evidenceMethod,method] at noMagic

theorem intendedAttested (address : IsAddress env email) (schematic : user.Schematic) (attested : Attested env email user.status) :
    Attested env email (user.getIntendedStatus (env.withDocument document)) := by
  obtain ⟨item,inside,magic,_⟩ := intendedMagicLink address schematic attested
  exact ⟨item,inside,magic⟩

theorem intendedSchematic (schematic : user.Schematic) :
    ∀ item ∈ (user.getIntendedStatus (env.withDocument document)).emailVerifications,
      (textAt "provider" item).isSome ∧ (isMagicLink item = true → textAt "status" item = some "verified") := by
  intro item inside
  rcases List.mem_append.mp (uniqueByMember inside) with own | other
  · obtain ⟨stored,kept,rfl⟩ := List.mem_map.mp own
    obtain ⟨kept,magic⟩ := List.mem_filter.mp kept
    obtain ⟨named,verified⟩ := schematic stored kept
    rw [textAt,textAt,canonicalOther (by decide),canonicalOther (by decide)]
    exact ⟨named,fun _ => verified magic⟩
  · refine ⟨?_,fun magic => ?_⟩
    · obtain ⟨evidence,_,rfl⟩ := List.mem_map.mp other
      simp [textAt,EmailEvidence.json,Json.string?]
    · rw [providerNoMagic item other] at magic
      cases magic

theorem verificationMagicLink {address method provider verifiedAt : String} :
    IsMagicLinkFor env email (verification address method provider verifiedAt) ↔
      method = "magic-link" ∧ provider = "passmower" ∧ canonicalizeEmail env (some address) = some email := by
  have texts : textAt "email" (verification address method provider verifiedAt) = some address ∧
      textAt "method" (verification address method provider verifiedAt) = some method ∧
      textAt "provider" (verification address method provider verifiedAt) = some provider := by
    simp [verification,textAt,Json.string?]
  obtain ⟨address_,method_,provider_⟩ := texts
  constructor
  · rintro ⟨magic,named,spelled⟩
    rw [isMagicLink,method_] at magic
    rw [provider_] at named
    rw [address_] at spelled
    exact ⟨Option.some.inj (of_decide_eq_true magic),Option.some.inj named,spelled⟩
  · rintro ⟨rfl,rfl,spelled⟩
    refine ⟨?_,provider_,?_⟩
    · simp [isMagicLink,method_]
    · rw [address_,spelled]

theorem verificationSchematic {address method provider verifiedAt : String} :
    (textAt "provider" (verification address method provider verifiedAt)).isSome ∧
      (isMagicLink (verification address method provider verifiedAt) = true →
        textAt "status" (verification address method provider verifiedAt) = some "verified") := by
  simp [verification,textAt,Json.string?]

theorem verifyAttested {address : Option String} {verifiedAt : String} (itself : IsAddress env email)
    (spelled : canonicalizeEmail env address = some email) (claimed : email ∈ user.getClaimedEmails env) :
    Attested env email (user.verifyEmail env address "magic-link" "passmower" verifiedAt).status := by
  unfold verifyEmail
  rw [spelled]
  dsimp only
  rw [if_neg (not_not_intro claimed)]
  exact ⟨_,List.mem_append_right _ (List.mem_singleton_self _),verificationMagicLink.mpr ⟨rfl,rfl,itself.canonical⟩⟩

theorem applyAttested (itself : IsAddress env email) (attested : Attested env email user.status) :
    Attested env email (mutation.apply env user).status := by
  cases mutation with
  | recordMagicLinkVerification address verifiedAt =>
      cases spelled : canonicalizeEmail env address with
      | none =>
          simp only [UserMutation.apply,verifyEmail,spelled]
          exact attested
      | some other =>
          by_cases claimed : other ∈ user.getClaimedEmails env
          · by_cases same : other = email
            · subst same
              exact verifyAttested itself spelled claimed
            · simp only [UserMutation.apply,verifyEmail,spelled]
              rw [if_neg (not_not_intro claimed)]
              obtain ⟨item,inside,magic⟩ := attested
              refine ⟨item,List.mem_append_left _ (List.mem_filter.mpr ⟨inside,?_⟩),magic⟩
              simp only [decide_eq_true_eq]
              rintro ⟨replaced,_⟩
              exact same (Option.some.inj (replaced.symm.trans magic.address))
          · simp only [UserMutation.apply,verifyEmail,spelled]
            rw [if_pos claimed]
            exact attested
  | _ => exact attested

theorem applySchematic (schematic : user.Schematic) : (mutation.apply env user).Schematic := by
  cases mutation with
  | recordMagicLinkVerification address verifiedAt =>
      simp only [UserMutation.apply,verifyEmail]
      split
      · exact schematic
      · split
        · exact schematic
        · intro item inside
          rcases List.mem_append.mp inside with kept | new
          · exact schematic item (List.mem_filter.mp kept).1
          · cases List.mem_singleton.mp new
            exact verificationSchematic
  | _ => exact schematic

theorem attestedVerified (address : IsAddress env email) (schematic : user.Schematic)
    (attested : Attested env email user.status) : user.verifiedFor env email = true := by
  obtain ⟨item,inside,magic,own⟩ : ∃ item ∈ user.getEmailVerifications (env.withDocument env.termsOfService),
      IsMagicLinkFor env email item ∧ textAt "email" item = some email :=
    intendedMagicLink address schematic attested
  have verified := (intendedSchematic schematic item inside).2 magic.method
  exact List.any_eq_true.mpr ⟨item,inside,decide_eq_true ⟨own,verified⟩⟩

structure Vouched (env : Env) (email : String) (user : StoredUser) : Prop where
  verified : user.verifiedFor env email = true
  linkable : ∀ spelled, canonicalizeEmail env spelled = some email → email ∈ user.getClaimedEmails env →
    user.isEmailLinkable env spelled = true
  primary : canonicalizeEmail env user.status.primaryEmail = some email → user.isPrimaryEmailVerified env = true

theorem attestedVouched (address : IsAddress env email) (schematic : user.Schematic)
    (attested : Attested env email user.status) : user.Vouched env email := by
  have verified := attestedVerified address schematic attested
  refine ⟨verified,fun spelled named claimed => ?_,fun named => ?_⟩
  · unfold isEmailLinkable
    rw [named]
    dsimp only
    rw [if_neg (not_not_intro claimed),if_pos verified]
  · unfold isPrimaryEmailVerified
    rw [named]
    exact verified

end StoredUser

section Mutations
open Resumption StatusMutation
variable {env : Env} {api : UserApi} {mutations : List (Option String × UserMutation)} {n : Nat} {user before : StoredUser}
  {status : StoredStatus} {email : String}

def statusFunctions (env : Env) (mutations : List (Option String × UserMutation)) :
    List (StatusFunction StoredUser StoredStatus) :=
  mutations.map fun mutation => mutation.2.statusFunction env mutation.1

theorem computesIntended (computes : Computes (statusFunctions env mutations) n before status) : ∃ document mutation,
    mutations[n]? = some (document,mutation) ∧
      status = (mutation.apply env before).getIntendedStatus (env.withDocument document) := by
  obtain ⟨statusFunction,found,made⟩ := computes
  rw [statusFunctions,List.getElem?_map] at found
  obtain ⟨⟨document,mutation⟩,listed,rfl⟩ := Option.map_eq_some_iff.mp found
  exact ⟨document,mutation,listed,(Except.ok.inj made).symm⟩

theorem writesSchematic (computes : Computes (statusFunctions env mutations) n before status) (schematic : before.Schematic) :
    (api.oidcUser.withStatus before status).Schematic := by
  obtain ⟨document,mutation,_,rfl⟩ := computesIntended computes
  exact StoredUser.intendedSchematic (StoredUser.applySchematic schematic)

theorem writesAttested (address : IsAddress env email)
    (computes : Computes (statusFunctions env mutations) n before status) (schematic : before.Schematic)
    (attested : StoredUser.Attested env email before.status) : StoredUser.Attested env email status := by
  obtain ⟨document,mutation,_,rfl⟩ := computesIntended computes
  exact StoredUser.intendedAttested address (StoredUser.applySchematic schematic)
    (StoredUser.applyAttested address attested)

theorem recordAttests {document spelled : Option String} {verifiedAt : String} (address : IsAddress env email)
    (named : canonicalizeEmail env spelled = some email)
    (mutation : mutations[n]? = some (document,.recordMagicLinkVerification spelled verifiedAt))
    (computes : Computes (statusFunctions env mutations) n before status) (schematic : before.Schematic)
    (claimed : email ∈ before.getClaimedEmails env) : StoredUser.Attested env email status := by
  obtain ⟨configured,made,found,rfl⟩ := computesIntended computes
  cases Option.some.inj (mutation.symm.trans found)
  exact StoredUser.intendedAttested address (StoredUser.applySchematic schematic)
    (StoredUser.verifyAttested address named claimed)

/- Once a login by a magic link was recorded of an account that claims the address, the address counts as verified as long as
the account is there: whatever else is made of its status at the same time and later, whatever becomes of the requests, and
however administrators and other logins edit the account. -/
theorem magicLinkKept (env : Env) (api : UserApi)
    (mutations : List (Option String × UserMutation)) (start : Register StoredUser)
    (schematic : ∀ user, start.content? = some user → user.Schematic) (moves : List (StatusMove api.oidcUser))
    (email : String) (address : IsAddress env email) (n : Nat) (document spelled : Option String) (verifiedAt : String)
    (mutation : mutations[n]? = some (document,.recordMagicLinkVerification spelled verifiedAt))
    (named : canonicalizeEmail env spelled = some email) (later earlier : List (Event StoredUser))
    (events : (StatusPool.run api.oidcUser (statusFunctions env mutations) moves start).state.events =
      later ++ earlier)
    (begins : eventsOf n earlier = []) (alive : .changed none ∉ later) (object : Versioned StoredUser)
    (returned : .returned n (.object object) ∈ later) (claimed : email ∈ object.content.getClaimedEmails env) :
    ∃ user, (StatusPool.run api.oidcUser (statusFunctions env mutations) moves start).state.register.content? =
      some user ∧ user.Vouched env email := by
  have told := mutationsExplained api.oidcUser (statusFunctions env mutations) start moves
  have explained := told.explained
  rw [← told.present]
  rw [events] at explained ⊢
  have always (events : List (Event StoredUser))
      (explained : Explained api.oidcUser (statusFunctions env mutations) start.content? events) :
      ∀ user, present start.content? events = some user → user.Schematic := by
    refine keptThroughout (fun m before status computes => writesSchematic computes) ?_ explained schematic
    intro before after allowed kept
    cases before with
    | none => exact allowed
    | some before =>
        have same : after.status = before.status := allowed
        intro item inside
        rw [same] at inside
        exact kept before rfl item inside
  obtain ⟨user,there,attested,fields⟩ := establishedBy
    (P := fun user : StoredUser => StoredUser.Attested env email user.status ∧ user.Schematic)
    (C := fun user => email ∈ user.getClaimedEmails env) always
    (fun m before status computes kept =>
      ⟨writesAttested address computes kept.2 kept.1,writesSchematic computes kept.2⟩)
    (fun before after allowed kept => by
      have same : after.status = before.status := allowed
      unfold StoredUser.Schematic
      rw [same]
      exact kept)
    (fun before status computes fields claimed =>
      ⟨recordAttests address named mutation computes fields claimed,writesSchematic computes fields⟩)
    (fun resource settled fields claimed => by
      obtain ⟨status,computes,same⟩ := settled
      exact ⟨StoredUser.sameAttested (api.tells _ _ same)
        (recordAttests address named mutation computes fields claimed),fields⟩)
    explained alive begins returned claimed
  exact ⟨user,there,StoredUser.attestedVouched address fields attested⟩

end Mutations

namespace Ada
open Resumption StatusMutation

def env : Env := {
  normalizeEmailAddresses := true
  normalizeEmail := fun text => if text = "ada@example.org" then some text else none}

def api : UserApi where
  isEqual := StoredStatus.isEqual
  tells _ _ same := statusesSame same
  unchanged _ _ := false
  unchangedSame _ _ never := by cases never

def account : StoredUser := {accountId := "ada", passmower := {email := some "ada@example.org"}}

def start : Register StoredUser where
  object := some ⟨account,1⟩
  next := 2
  earlier o there := by
    cases Option.some.inj there
    exact Nat.lt_succ_self 1

def mutations : List (Option String × UserMutation) := [
  (some "first",.recordMagicLinkVerification (some " Ada@example.org") "2024-05-01T10:00:00.000Z"),
  (some "first",.confirmTos "first" "2024-05-01T10:00:05.000Z"),
  (some "second",.reconcileUserStatus)]

def moves : List (StatusMove api.oidcUser) := [.begin,.begin,.proceed 0 .carried,.proceed 1 .carried,.proceed 1 .carried,
  .change (fun user => {user with passmower := {user.passmower with name := some "Ada"}}) (fun _ => rfl),.proceed 0 .carried,
  .proceed 0 .carried,.begin,.proceed 0 .carried,.proceed 2 .carried,.proceed 2 .carried]

def ran : StatusPool StoredUser StoredStatus := StatusPool.run api.oidcUser (statusFunctions env mutations) moves start

def returnsClaiming (n : Nat) : Event StoredUser → Bool
  | .returned author (.object object) => author = n ∧ "ada@example.org" ∈ object.content.getClaimedEmails env
  | _ => false

def removes : Event StoredUser → Bool
  | .changed none => true
  | _ => false

theorem stays : .changed none ∉ ran.state.events := by
  intro gone
  have removed : ran.state.events.any removes = true := List.any_eq_true.mpr ⟨_,gone,rfl⟩
  have never : ran.state.events.any removes = false := by decide +kernel
  rw [never] at removed
  cases removed

end Ada

theorem adaVouched : ∃ user, Ada.ran.state.register.content? = some user ∧ user.Vouched Ada.env "ada@example.org" := by
  have returns : Ada.ran.state.events.any (Ada.returnsClaiming 0) = true := by decide +kernel
  obtain ⟨event,inside,claims⟩ := List.any_eq_true.mp returns
  unfold Ada.returnsClaiming at claims
  split at claims
  · rename_i author object
    obtain ⟨rfl,claimed⟩ := of_decide_eq_true claims
    refine magicLinkKept Ada.env Ada.api Ada.mutations Ada.start ?_ Ada.moves "ada@example.org"
      ⟨by decide,by decide,by decide⟩ 0 _ _ _ rfl (by decide) _ [] (List.append_nil _).symm rfl Ada.stays object inside claimed
    intro user there item never
    cases Option.some.inj there
    cases never
  · cases claims

section Terms
open Resumption StatusMutation
variable {env : Env} {api : UserApi} {mutations : List (Option String × UserMutation)} {user before : StoredUser}

def UserMutation.acceptance? : UserMutation → Option (String × String)
  | .confirmTos contentHash acceptedAt => some (contentHash,acceptedAt)
  | _ => none

section Acceptances
variable (mutations : List (Option String × UserMutation)) {later earlier : List (Event StoredUser)} {after : StoredUser}
  {document : Option String} {mutation : UserMutation} {start : Option StoredUser}

def acceptanceBy (n : Nat) : Option (String × String) := mutations[n]?.bind fun mutation => mutation.2.acceptance?

def acceptanceOf (earlier : List (Event StoredUser)) : Event StoredUser → Option (String × String)
  | .wrote n _ _ => acceptanceBy mutations n
  | .returned n (.object _) => if (eventsOf n earlier).isEmpty then acceptanceBy mutations n else none
  | _ => none

def accepted (earlier : List (Event StoredUser)) : List (Event StoredUser) → Option (String × String)
  | [] => none
  | event :: rest => (acceptanceOf mutations (rest ++ earlier) event).or (accepted earlier rest)

def Baselined (a b : Object) : Prop :=
  b = a ∨ (a.get "contentHash" = some .null ∧ ∃ contentHash, b = mapSet "contentHash" (.string contentHash) a)

def Accepting (before user : StoredUser) : Option (String × String) → Prop
  | some (contentHash,acceptedAt) => ∃ acceptance, user.getTermsOfServiceAcceptance = some acceptance ∧
      textAt "contentHash" acceptance = some contentHash ∧ textAt "acceptedAt" acceptance = some acceptedAt
  | none => Option.Rel Baselined before.getTermsOfServiceAcceptance user.getTermsOfServiceAcceptance

variable {mutations}

theorem baselineTaken (acceptance : Object) : Baselined acceptance (StoredUser.withBaseline env acceptance) := by
  unfold StoredUser.withBaseline
  split
  · rename_i contentHash null _
    exact .inr ⟨null,contentHash,rfl⟩
  · exact .inl rfl

theorem baselineTrans {a b c : Object} (first : Baselined a b) (second : Baselined b c) : Baselined a c := by
  rcases first with rfl | ⟨null,contentHash,rfl⟩
  · exact second
  · rcases second with rfl | ⟨never,_⟩
    · exact .inr ⟨null,contentHash,rfl⟩
    · simp at never

theorem givenBaseline {acceptance : Object} {contentHash : String} (told : textAt "contentHash" acceptance = some contentHash) :
    StoredUser.withBaseline env acceptance = acceptance := by
  unfold StoredUser.withBaseline
  split
  · rename_i null _
    simp [textAt,null,Json.string?] at told
  · rfl

theorem intendedAcceptance : {before with status := user.getIntendedStatus env}.getTermsOfServiceAcceptance =
    user.getIntendedTermsOfServiceAcceptance env := by
  have noLegacy : (user.getIntendedStatus env).conditions.find? StoredUser.isLegacyAcceptance = none := by
    refine List.find?_eq_none.mpr fun condition inside legacy => ?_
    have kept := (List.mem_filter.mp inside).2
    simp only [StoredUser.isLegacyAcceptance,decide_eq_true_eq] at legacy
    simp [legacy.1] at kept
  unfold StoredUser.getTermsOfServiceAcceptance
  simp only [noLegacy,Option.map_none]
  cases intended : user.getIntendedTermsOfServiceAcceptance env with
  | none =>
      have recorded : (user.getIntendedStatus env).termsOfService = none := intended
      rw [recorded]
  | some acceptance =>
      have recorded : (user.getIntendedStatus env).termsOfService = some acceptance := intended
      rw [recorded]

theorem acceptanceStatus (same : after.status = before.status) :
    after.getTermsOfServiceAcceptance = before.getTermsOfServiceAcceptance := by
  unfold StoredUser.getTermsOfServiceAcceptance
  rw [same]

theorem applyAcceptance (other : mutation.acceptance? = none) :
    (mutation.apply env user).getTermsOfServiceAcceptance = user.getTermsOfServiceAcceptance := by
  cases mutation with
  | reconcileUserStatus => rfl
  | recordMagicLinkVerification address verifiedAt =>
      simp only [UserMutation.apply,StoredUser.verifyEmail]
      split
      · rfl
      · split
        · rfl
        · rfl
  | confirmTos contentHash acceptedAt => cases other
  | commitUsername now =>
      have appended : (user.status.conditions ++ [Condition.json ⟨"UsernameCommitted","True",some now⟩]).find?
          StoredUser.isLegacyAcceptance = user.status.conditions.find? StoredUser.isLegacyAcceptance := by
        simp [StoredUser.isLegacyAcceptance,Condition.json,textAt,Json.string?]
      simp only [UserMutation.apply,StoredUser.addCondition,StoredUser.setConditions,StoredUser.getConditions,
        StoredUser.getTermsOfServiceAcceptance,appended]
  | reconcileEmail assessment now =>
      have noLegacy : StoredUser.isLegacyAcceptance (user.emailCondition assessment now) = false := by
        simp [StoredUser.isLegacyAcceptance,StoredUser.emailCondition,textAt,Json.string?]
      have filtered : (user.status.conditions.filter fun condition => !isEmailUnique condition).find?
          StoredUser.isLegacyAcceptance = user.status.conditions.find? StoredUser.isLegacyAcceptance := by
        rw [List.find?_filter]
        congr 1
        funext condition
        by_cases legacy : textAt "type" condition = some "ToSv1"
        · simp [StoredUser.isLegacyAcceptance,isEmailUnique,legacy]
        · simp [StoredUser.isLegacyAcceptance,legacy]
      have replaced : (user.status.conditions.filter (fun condition => !isEmailUnique condition) ++
          [user.emailCondition assessment now]).find? StoredUser.isLegacyAcceptance =
            user.status.conditions.find? StoredUser.isLegacyAcceptance := by
        rw [List.find?_append,filtered]
        simp [noLegacy]
      simp only [UserMutation.apply,StoredUser.withEmailCondition,StoredUser.setConditions,StoredUser.getConditions,
        StoredUser.getTermsOfServiceAcceptance,replaced]
  | flushUser merged => rfl

theorem writtenAcceptance {contentHash acceptedAt : String} :
    (user.acceptTermsOfService contentHash acceptedAt).getIntendedTermsOfServiceAcceptance env =
      some [("acceptedAt",.string acceptedAt),("contentHash",.string contentHash)] := rfl

theorem relTrans {R : Object → Object → Prop} (trans : ∀ {a b c}, R a b → R b c → R a c) {a b c : Option Object}
    (first : Option.Rel R a b) (second : Option.Rel R b c) : Option.Rel R a c := by
  cases first with
  | none =>
      cases second with
      | none => exact .none
  | some ab =>
      cases second with
      | some bc => exact .some (trans ab bc)

theorem writesAccepting {was : Option (String × String)} (accepting : Accepting before user was)
    (other : mutation.acceptance? = none) :
    Accepting before {user with status := (mutation.apply env user).getIntendedStatus (env.withDocument document)} was := by
  have written : {user with status :=
      (mutation.apply env user).getIntendedStatus (env.withDocument document)}.getTermsOfServiceAcceptance =
        user.getTermsOfServiceAcceptance.map (StoredUser.withBaseline (env.withDocument document)) := by
    rw [intendedAcceptance,StoredUser.getIntendedTermsOfServiceAcceptance,applyAcceptance other]
  cases was with
  | none =>
      unfold Accepting at accepting ⊢
      rw [written]
      refine relTrans (R := Baselined) baselineTrans accepting ?_
      cases user.getTermsOfServiceAcceptance with
      | none => exact .none
      | some acceptance => exact .some (baselineTaken acceptance)
  | some last =>
      obtain ⟨acceptance,there,hash,time⟩ := accepting
      refine ⟨acceptance,?_,hash,time⟩
      rw [written,there,Option.map_some,givenBaseline hash]

theorem acceptanceFound {n : Nat} {last : String × String} (found : acceptanceBy mutations n = some last) :
    ∃ document, mutations[n]? = some (document,.confirmTos last.1 last.2) := by
  obtain ⟨⟨document,mutation⟩,listed,made⟩ := Option.bind_eq_some_iff.mp found
  cases mutation with
  | confirmTos contentHash acceptedAt =>
      cases Option.some.inj made
      exact ⟨document,listed⟩
  | _ => cases made

theorem acceptanceMissing {n : Nat} (missing : acceptanceBy mutations n = none)
    (found : mutations[n]? = some (document,mutation)) : mutation.acceptance? = none := by
  rw [acceptanceBy,found] at missing
  exact missing

theorem acceptedWritten {contentHash acceptedAt : String} :
    Accepting before {user with status :=
      ((UserMutation.confirmTos contentHash acceptedAt).apply env user).getIntendedStatus (env.withDocument document)}
      (some (contentHash,acceptedAt)) := by
  refine ⟨[("acceptedAt",.string acceptedAt),("contentHash",.string contentHash)],?_,?_,?_⟩
  · rw [intendedAcceptance]
    exact writtenAcceptance
  · simp [textAt,Object.get,Json.string?]
  · simp [textAt,Object.get,Json.string?]

theorem acceptedFound {contentHash acceptedAt : String}
    (same : user.status.Same (((UserMutation.confirmTos contentHash acceptedAt).apply env user).getIntendedStatus
      (env.withDocument document))) :
    Accepting before user (some (contentHash,acceptedAt)) := by
  have acceptance : Option.Rel TextsSame user.status.termsOfService
      (some [("acceptedAt",.string acceptedAt),("contentHash",.string contentHash)]) := same.acceptance
  cases held : user.status.termsOfService with
  | none =>
      rw [held] at acceptance
      cases acceptance
  | some accepted =>
      rw [held] at acceptance
      cases acceptance with
      | some texts =>
          refine ⟨accepted,?_,?_,?_⟩
          · simp [StoredUser.getTermsOfServiceAcceptance,held]
          · rw [texts "contentHash"]
            simp [textAt,Object.get,Json.string?]
          · rw [texts "acceptedAt"]
            simp [textAt,Object.get,Json.string?]

theorem acceptedWrote {n : Nat} {rest : List (Event StoredUser)} : accepted mutations earlier (.wrote n before after :: rest) =
    (acceptanceBy mutations n).or (accepted mutations earlier rest) := rfl

theorem acceptedReturned {n : Nat} {object : Versioned StoredUser} {rest : List (Event StoredUser)} :
    accepted mutations earlier (.returned n (.object object) :: rest) =
      (if (eventsOf n (rest ++ earlier)).isEmpty then acceptanceBy mutations n else none).or (accepted mutations earlier rest) := rfl

theorem acceptingAlong (explained : Explained api.oidcUser (statusFunctions env mutations) start (later ++ earlier))
    (alive : .changed none ∉ later) (began : present start earlier = some before) :
    ∃ user, present start (later ++ earlier) = some user ∧ Accepting before user (accepted mutations earlier later) := by
  induction later with
  | nil =>
      refine ⟨before,began,?_⟩
      show Option.Rel Baselined before.getTermsOfServiceAcceptance before.getTermsOfServiceAcceptance
      cases before.getTermsOfServiceAcceptance with
      | none => exact .none
      | some acceptance => exact .some (.inl rfl)
  | cons event rest ih =>
      obtain ⟨user,there,accepting⟩ := ih explained.2 fun gone => alive (List.mem_cons_of_mem event gone)
      have accounted := explained.1
      cases event with
      | wrote author was after =>
          obtain ⟨_,known,status,computes,_,rfl⟩ := accounted
          cases Option.some.inj (there.symm.trans known)
          obtain ⟨document,mutation,listed,rfl⟩ := computesIntended computes
          refine ⟨_,rfl,?_⟩
          rw [acceptedWrote]
          cases found : acceptanceBy mutations author with
          | none => exact writesAccepting accepting (acceptanceMissing found listed)
          | some last =>
              obtain ⟨configured,mutation_⟩ := acceptanceFound found
              cases Option.some.inj (listed.symm.trans mutation_)
              exact acceptedWritten
      | returned author outcome =>
          refine ⟨user,there,?_⟩
          cases outcome with
          | object object =>
              rw [acceptedReturned]
              by_cases silent : (eventsOf author (rest ++ earlier)).isEmpty = true
              · rw [if_pos silent]
                cases found : acceptanceBy mutations author with
                | none => exact accepting
                | some last =>
                    rcases accounted with ⟨_,own⟩ | ⟨_,known,status,computes,same⟩
                    · have own : eventsOf author (rest ++ earlier) = _ := own
                      rw [own] at silent
                      cases silent
                    · cases Option.some.inj (there.symm.trans known)
                      obtain ⟨document,mutation,listed,rfl⟩ := computesIntended computes
                      obtain ⟨configured,mutation_⟩ := acceptanceFound found
                      cases Option.some.inj (listed.symm.trans mutation_)
                      exact acceptedFound (api.tells _ _ same)
              · rw [if_neg silent]
                exact accepting
          | null => exact accepting
          | undefined => exact accepting
      | changed after =>
          cases after with
          | none => exact absurd (List.mem_cons_self ..) alive
          | some after =>
              have made : api.oidcUser.foreign (present start (rest ++ earlier)) after := accounted
              rw [there] at made
              refine ⟨after,rfl,?_⟩
              have same : Accepting before after = Accepting before user := by
                funext last
                unfold Accepting
                rw [acceptanceStatus made]
              show Accepting before after (accepted mutations earlier rest)
              rw [same]
              exact accepting

def StoredUser.isExempt (user : StoredUser) : Bool := (truthy user.spec.type).any (· ≠ "person")

def ToPrompt (before user : StoredUser) : Option (String × String) → Prop
  | some (contentHash,_) => ∀ document, user.tosRequired (some document) = (!user.isExempt && document ≠ contentHash)
  | none => ∀ document, before.tosRequired document = true → user.isExempt = false → user.tosRequired document = true

theorem acceptingToPrompt {last : Option (String × String)} (accepting : Accepting before user last) :
    ToPrompt before user last := by
  cases last with
  | some last =>
      obtain ⟨acceptance,there,hash,_⟩ := accepting
      have stored : acceptance.get "contentHash" = some (.string last.1) := by
        obtain ⟨value,held,text⟩ := Option.bind_eq_some_iff.mp hash
        cases value with
        | string written =>
            cases Option.some.inj text
            exact held
        | _ => cases text
      intro document
      unfold StoredUser.tosRequired
      simp only [there,stored]
      cases exempt : user.isExempt with
      | true => exact if_pos exempt
      | false =>
          have person : ¬ (truthy user.spec.type).any (· ≠ "person") = true := by
            rw [show (truthy user.spec.type).any (· ≠ "person") = false from exempt]
            exact Bool.false_ne_true
          rw [if_neg person]
          simp [eq_comm]
  | none =>
      intro document required person
      have accepting : Option.Rel Baselined before.getTermsOfServiceAcceptance user.getTermsOfServiceAcceptance := accepting
      have no : ¬ (truthy user.spec.type).any (· ≠ "person") = true := by
        rw [show (truthy user.spec.type).any (· ≠ "person") = false from person]
        exact Bool.false_ne_true
      unfold StoredUser.tosRequired at required ⊢
      cases document with
      | none => cases required
      | some contentHash =>
          dsimp only at required ⊢
          rw [if_neg no]
          split at required
          · cases required
          · cases held : before.getTermsOfServiceAcceptance with
            | none =>
                rw [held] at accepting
                generalize user.getTermsOfServiceAcceptance = now at accepting
                cases accepting
                rfl
            | some acceptance =>
                rw [held] at accepting required
                generalize user.getTermsOfServiceAcceptance = now at accepting
                cases accepting with
                | some baselined =>
                    rcases baselined with rfl | ⟨null,_⟩
                    · exact required
                    · simp [null] at required

end Acceptances

/- However mutations of the status overlap, and whatever becomes of their requests: an account has accepted the document that
was accepted last, and no other mutation makes it an acceptance or takes one back. -/
theorem acceptancesKept (env : Env) (api : UserApi) (mutations : List (Option String × UserMutation))
    (start : Register StoredUser) (moves : List (StatusMove api.oidcUser)) (later earlier : List (Event StoredUser))
    (events : (StatusPool.run api.oidcUser (statusFunctions env mutations) moves start).state.events = later ++ earlier)
    (alive : .changed none ∉ later) (before : StoredUser) (began : present start.content? earlier = some before) :
    ∃ user, (StatusPool.run api.oidcUser (statusFunctions env mutations) moves start).state.register.content? = some user ∧
      Accepting before user (accepted mutations earlier later) ∧ ToPrompt before user (accepted mutations earlier later) := by
  have told := mutationsExplained api.oidcUser (statusFunctions env mutations) start moves
  have explained := told.explained
  rw [← told.present]
  rw [events] at explained ⊢
  obtain ⟨user,there,accepting⟩ := acceptingAlong explained alive began
  exact ⟨user,there,accepting,acceptingToPrompt accepting⟩

end Terms

theorem adaAccepted : ∃ user, Ada.ran.state.register.content? = some user ∧
    Accepting Ada.account user (some ("first","2024-05-01T10:00:05.000Z")) ∧
    ToPrompt Ada.account user (some ("first","2024-05-01T10:00:05.000Z")) := by
  have last : accepted Ada.mutations [] Ada.ran.state.events = some ("first","2024-05-01T10:00:05.000Z") := by decide +kernel
  rw [← last]
  exact acceptancesKept Ada.env Ada.api Ada.mutations Ada.start Ada.moves _ [] (List.append_nil _).symm Ada.stays Ada.account rfl

end Passmower
