import Passmower.Passkeys
import Passmower.RedisAdapter
import Passmower.Resumption.History
import Passmower.Resumption.Stepping
import Passmower.Resumption.Triple

/-! Passkey ceremonies: registrations and sign-ins in any order of their reads and writes, on any number of replicas. Their
challenges wait in Redis for a minute; what an authenticator's response proves is up to the library that verifies it. -/
namespace Passmower
open JavaScript Resumption Program

namespace WebAuthn

structure Credential extends Passkey where
  publicKey : String
  transports : List String := []
  deviceType : String
  backedUp : Bool
  deriving DecidableEq

structure Holder where
  accountId : String
  credentials : List Credential := []
  deriving DecidableEq

structure AuthenticatorResponse where
  id : String
  transports : Option (List String) := none
  proof : String
  deriving DecidableEq

structure RegistrationInfo where
  publicKey : String
  counter : Nat
  credentialDeviceType : String
  credentialBackedUp : Bool

/- `@simplewebauthn/server`, for the origin and the relying party of the issuer; a response is verified against a challenge. -/
structure Verifier where
  verifyRegistrationResponse : AuthenticatorResponse → String → Except JsError (Option RegistrationInfo)
  verifyAuthenticationResponse : AuthenticatorResponse → String → Credential → Except JsError (Option Nat)

def findUserByPasskeyId (credentialId : String) (users : List Holder) : Option Holder :=
  users.find? fun user => user.credentials.any (·.id = credentialId)

inductive CeremonyCall where
  | store (key challenge : String)
  | get (key : String)
  | remove (key : String)
  | listUsers
  | addPasskey (accountId : String) (credential : Credential)
  | updatePasskeyCounter (accountId credentialId : String) (newCounter : Nat)
  /- `interactionResult`, of the interaction that the request's cookie names -/
  | interactionResult (interaction accountId : String)

abbrev CeremonyAnswer : CeremonyCall → Type
  | .get _ => Option String
  | .listUsers => List Holder
  | .addPasskey _ _ | .updatePasskeyCounter _ _ _ => Except JsError Unit
  | .store _ _ | .remove _ | .interactionResult _ _ => Unit

abbrev ceremonies : Interface := ⟨CeremonyCall,CeremonyAnswer⟩

def CeremonyCall.awaits : CeremonyCall → Bool := fun _ => true

abbrev Ceremony (α : Type) := Program ceremonies JsError α

def registrationKey (accountId : String) : String := "reg:" ++ accountId

def authenticationKey (sessionId : String) : String := "auth:" ++ sessionId

section Service
variable (verifier : Verifier)

def startRegistration (accountId challenge : String) : Ceremony Unit :=
  ask (I := ceremonies) (.store (registrationKey accountId) challenge)

def newCredential (response : AuthenticatorResponse) (name : String) (info : RegistrationInfo) : Credential where
  id := response.id
  name := some name
  counter := info.counter
  publicKey := info.publicKey
  transports := response.transports.getD []
  deviceType := info.credentialDeviceType
  backedUp := info.credentialBackedUp

def finishRegistration (accountId : String) (response : AuthenticatorResponse) (name : String) :
    Ceremony (Option Credential) := do
  let stored ← ask (I := ceremonies) (.get (registrationKey accountId))
  match truthy stored with
  | none => .throw (.other "Registration challenge expired or not found")
  | some expectedChallenge => do
      match ← orThrow (verifier.verifyRegistrationResponse response expectedChallenge) with
      | none => .pure none
      | some info => do
          let added : Except JsError Unit ← ask (I := ceremonies) (.addPasskey accountId (newCredential response name info))
          orThrow added
          ask (I := ceremonies) (.remove (registrationKey accountId))
          .pure (some (newCredential response name info))

def startAuthentication (sessionId challenge : String) : Ceremony Unit :=
  ask (I := ceremonies) (.store (authenticationKey sessionId) challenge)

def finishAuthentication (sessionId : String) (response : AuthenticatorResponse) : Ceremony (Option Holder) := do
  let stored ← ask (I := ceremonies) (.get (authenticationKey sessionId))
  match truthy stored with
  | none => .throw (.other "Authentication challenge expired or not found")
  | some expectedChallenge => do
      let users : List Holder ← ask (I := ceremonies) .listUsers
      match findUserByPasskeyId response.id users with
      | none => .throw (.other "Unknown credential")
      | some account => match account.credentials.find? (·.id = response.id) with
          | none => .throw (.other "Credential not found in user account")
          | some credential => do
              match ← orThrow (verifier.verifyAuthenticationResponse response expectedChallenge credential) with
              | none => .pure none
              | some newCounter => do
                  let updated : Except JsError Unit ← ask (I := ceremonies)
                    (.updatePasskeyCounter account.accountId credential.id newCounter)
                  orThrow updated
                  ask (I := ceremonies) (.remove (authenticationKey sessionId))
                  .pure (some account)

end Service

/- The routes. A sign-in is for the interaction of the request's cookie, its challenge for the one of its path. -/
inductive CeremonyRequest where
  | registerStart (accountId challenge : String)
  | registerFinish (accountId : String) (response : Option AuthenticatorResponse) (name : Option String)
  | passkeyStart (webauthnEnabled : Bool) (prompt uid challenge : String)
  | passkeyFinish (interaction prompt uid : String) (response : Option AuthenticatorResponse)

def CeremonyRequest.program (verifier : Verifier) : CeremonyRequest → Ceremony Unit
  | .registerStart accountId challenge => startRegistration accountId challenge
  | .registerFinish accountId response name => match response with
      | none => .pure ()
      | some response => do
          let _ ← finishRegistration verifier accountId response ((truthy name).getD "Passkey")
          .pure ()
  | .passkeyStart webauthnEnabled prompt uid challenge =>
      if !webauthnEnabled then .throw (.other "Passkey login is disabled")
      else if prompt ≠ "login" then .throw (.other "AssertionError")
      else startAuthentication uid challenge
  | .passkeyFinish interaction prompt uid response =>
      if prompt ≠ "login" then .throw (.other "AssertionError")
      else match response with
        | none => .pure ()
        | some response => do
            match ← finishAuthentication verifier uid response with
            | none => .pure ()
            | some account => ask (I := ceremonies) (.interactionResult interaction account.accountId)

inductive CeremonyEvent where
  | issued (key challenge : String) (time : Nat)
  | read (n : Nat) (key challenge : String) (time : Nat)
  | listed (n : Nat) (users : List Holder)
  | removed (n : Nat) (key : String)
  | added (n : Nat) (accountId : String) (credential : Credential)
  | signedIn (n : Nat) (interaction accountId : String)
  deriving DecidableEq

structure CeremonyWorld where
  redis : Redis := {}
  users : List Holder
  requests : List CeremonyRequest := []
  log : List CeremonyEvent := []

def challengeModel : Model := .other "WebAuthnChallenge"

def challengeTtl : Nat := 60

namespace CeremonyWorld
variable (s : CeremonyWorld)

def challenge (key : String) : Option String :=
  (s.redis.payload (.record challengeModel key)).bind fun data => (data.get "challenge").bind Json.string?

def noting (event : CeremonyEvent) : CeremonyWorld := {s with log := event :: s.log}

def storing (key challenge : String) : CeremonyWorld :=
  let upsert := RedisAdapter.upsert challengeModel key [("challenge",.string challenge)] (some challengeTtl)
  {s with redis := after answerRedis upsert [] s.redis}

def removing (key : String) : CeremonyWorld :=
  {s with redis := after answerRedis (RedisAdapter.destroy challengeModel key) [] s.redis}

def editing (accountId : String) (edit : List Credential → Except JsError (List Credential)) :
    Except JsError Unit × CeremonyWorld :=
  match s.users.find? (·.accountId = accountId) with
  | none => (.error .typeError,s)
  | some user => match edit user.credentials with
      | .error e => (.error e,s)
      | .ok credentials => (.ok (),{s with users := s.users.map fun other =>
          if other.accountId = accountId then {other with credentials := credentials} else other})

end CeremonyWorld

def withAdded (credential : Credential) (existing : List Credential) : Except JsError (List Credential) :=
  if existing.any (·.id = credential.id) then .error (.other "Credential already exists") else .ok (existing ++ [credential])

def withCounter (credentialId : String) (newCounter : Nat) (existing : List Credential) : Except JsError (List Credential) :=
  match existing.findIdx? (·.id = credentialId) with
  | none => .error (.other "Credential not found")
  | some credIndex => .ok (existing.modify credIndex fun credential => {credential with counter := newCounter})

def answerCeremonies (n : Nat) : Handler ceremonies (Option JsError) CeremonyWorld := fun failure c s => match c with
  | .store key challenge => ((),(s.storing key challenge).noting (.issued key challenge s.redis.clock))
  | .get key => match s.challenge key with
      | none => (none,s)
      | some challenge => (some challenge,s.noting (.read n key challenge s.redis.clock))
  | .remove key => ((),(s.removing key).noting (.removed n key))
  | .listUsers => (s.users,s.noting (.listed n s.users))
  | .addPasskey accountId credential => match failure with
      | some e => (.error e,s)
      | none => match s.editing accountId (withAdded credential) with
          | (.ok (),t) => (.ok (),t.noting (.added n accountId credential))
          | (.error e,t) => (.error e,t)
  | .updatePasskeyCounter accountId credentialId newCounter => match failure with
      | some e => (.error e,s)
      | none => s.editing accountId (withCounter credentialId newCounter)
  | .interactionResult interaction accountId => ((),s.noting (.signedIn n interaction accountId))

inductive CeremonyMove where
  | request (request : CeremonyRequest)
  | proceed (n : Nat) (failure : Option JsError)
  | pass (ms : Nat)
  /- Whatever else is done to the accounts -/
  | editUsers (users : List Holder)

abbrev CeremonyPool := Pool ceremonies JsError CeremonyWorld

namespace CeremonyPool
variable (verifier : Verifier)

def step (pool : CeremonyPool) : CeremonyMove → CeremonyPool
  | .request request => (pool.edit fun s => {s with requests := s.requests ++ [request]}).spawn answerCeremonies
      CeremonyCall.awaits (request.program verifier)
  | .proceed n failure => pool.proceed answerCeremonies CeremonyCall.awaits n failure
  | .pass ms => pool.edit fun s => {s with redis := s.redis.pass ms}
  | .editUsers users => pool.edit fun s => {s with users := users}

def run (moves : List CeremonyMove) (pool : CeremonyPool) : CeremonyPool := moves.foldl (step verifier) pool

def begin (users : List Holder) : CeremonyPool := ⟨[],{users := users}⟩

end CeremonyPool

def CeremonyRequest.issues : CeremonyRequest → Option (String × String)
  | .registerStart accountId challenge => some (registrationKey accountId,challenge)
  | .passkeyStart webauthnEnabled prompt uid challenge =>
      if webauthnEnabled = true ∧ prompt = "login" then some (authenticationKey uid,challenge) else none
  | .registerFinish _ _ _ | .passkeyFinish _ _ _ _ => none

def InTime (history : List CeremonyEvent) (key challenge : String) (time : Nat) : Prop :=
  ∃ issuedAt, .issued key challenge issuedAt ∈ history ∧ issuedAt ≤ time ∧ time < issuedAt + 1000 * challengeTtl

structure Registers (verifier : Verifier) (requests : List CeremonyRequest) (history : List CeremonyEvent) (n : Nat)
    (accountId : String) (credential : Credential) (response : AuthenticatorResponse) (name : Option String) (challenge : String)
    (time : Nat) (info : RegistrationInfo) : Prop where
  asked : requests[n]? = some (.registerFinish accountId (some response) name)
  read : .read n (registrationKey accountId) challenge time ∈ history
  verified : verifier.verifyRegistrationResponse response challenge = .ok (some info)
  credential : credential = newCredential response ((truthy name).getD "Passkey") info

/- Request `n` signs in the account that held the credential of its response, which was verified with that credential against the
challenge it has read and removed. -/
structure Authenticates (verifier : Verifier) (requests : List CeremonyRequest) (history : List CeremonyEvent) (n : Nat)
    (interaction uid : String) (response : AuthenticatorResponse) (challenge : String) (time : Nat) (users : List Holder)
    (account : Holder) (credential : Credential) : Prop where
  asked : requests[n]? = some (.passkeyFinish interaction "login" uid (some response))
  read : .read n (authenticationKey uid) challenge time ∈ history
  listed : .listed n users ∈ history
  found : findUserByPasskeyId response.id users = some account
  held : account.credentials.find? (·.id = response.id) = some credential
  verified : ∃ newCounter, verifier.verifyAuthenticationResponse response challenge credential = .ok (some newCounter)
  removed : .removed n (authenticationKey uid) ∈ history

def Justified (verifier : Verifier) (requests : List CeremonyRequest) (history : List CeremonyEvent) : CeremonyEvent → Prop
  | .issued key challenge _ => ∃ request ∈ requests, request.issues = some (key,challenge)
  | .read _ key challenge time => InTime history key challenge time
  | .listed _ _ => True
  | .removed n key => ∃ challenge time, .read n key challenge time ∈ history
  | .added n accountId credential => ∃ response name challenge time info,
      Registers verifier requests history n accountId credential response name challenge time info
  | .signedIn n interaction accountId => ∃ uid response challenge time users account credential,
      Authenticates verifier requests history n interaction uid response challenge time users account credential ∧
        account.accountId = accountId

def Knows (verifier : Verifier) (n : Nat) (s : CeremonyWorld) : CeremonyCall → Prop
  | .store key challenge => Justified verifier s.requests s.log (.issued key challenge s.redis.clock)
  | .remove key => Justified verifier s.requests s.log (.removed n key)
  | .addPasskey accountId credential => Justified verifier s.requests s.log (.added n accountId credential)
  | .interactionResult interaction accountId => Justified verifier s.requests s.log (.signedIn n interaction accountId)
  | .get _ | .listUsers | .updatePasskeyCounter _ _ _ => True

structure Grows (s t : CeremonyWorld) : Prop where
  log : s.log ⊆ t.log
  requests : ∀ (n : Nat) (request : CeremonyRequest), s.requests[n]? = some request → t.requests[n]? = some request

section Programs
variable {verifier : Verifier} {n : Nat} {s t : CeremonyWorld} {K : Contract ceremonies CeremonyWorld} {α : Type}

theorem growsSelf (s : CeremonyWorld) : Grows s s := ⟨List.Subset.refl _,fun _ _ => id⟩

theorem growsTrans {u : CeremonyWorld} (first : Grows s t) (second : Grows t u) : Grows s u :=
  ⟨List.Subset.trans first.log second.log,fun n request asked => second.requests n request (first.requests n request asked)⟩

theorem growsNoting (s : CeremonyWorld) (event : CeremonyEvent) : Grows s (s.noting event) :=
  ⟨List.subset_cons_self _ _,fun _ _ => id⟩

theorem editingGrows (s : CeremonyWorld) (accountId : String) (edit : List Credential → Except JsError (List Credential)) :
    (s.editing accountId edit).2.log = s.log ∧ (s.editing accountId edit).2.requests = s.requests ∧
      (s.editing accountId edit).2.redis = s.redis := by
  unfold CeremonyWorld.editing
  split
  · exact ⟨rfl,rfl,rfl⟩
  · split
    · exact ⟨rfl,rfl,rfl⟩
    · exact ⟨rfl,rfl,rfl⟩

theorem callGrows (n : Nat) (w : Option JsError) (c : CeremonyCall) (s : CeremonyWorld) :
    Grows s (answerCeremonies n w c s).2 ∧ (answerCeremonies n w c s).2.requests = s.requests := by
  cases c with
  | store key challenge => exact ⟨⟨List.subset_cons_self _ _,fun _ _ => id⟩,rfl⟩
  | get key =>
      simp only [answerCeremonies]
      split
      · exact ⟨growsSelf s,rfl⟩
      · exact ⟨growsNoting s _,rfl⟩
  | remove key => exact ⟨⟨List.subset_cons_self _ _,fun _ _ => id⟩,rfl⟩
  | listUsers => exact ⟨growsNoting s _,rfl⟩
  | addPasskey accountId credential =>
      obtain ⟨log,requests,_⟩ := editingGrows s accountId (withAdded credential)
      simp only [answerCeremonies]
      split
      · exact ⟨growsSelf s,rfl⟩
      · split
        · rename_i edited
          rw [edited] at log requests
          refine ⟨⟨?_,fun k request asked => ?_⟩,requests⟩
          · rw [← log]
            exact List.subset_cons_self _ _
          · rw [← requests] at asked
            exact asked
        · rename_i edited
          rw [edited] at log requests
          refine ⟨⟨?_,fun k request asked => ?_⟩,requests⟩
          · rw [← log]
            exact List.Subset.refl _
          · rw [← requests] at asked
            exact asked
  | updatePasskeyCounter accountId credentialId newCounter =>
      obtain ⟨log,requests,_⟩ := editingGrows s accountId (withCounter credentialId newCounter)
      simp only [answerCeremonies]
      split
      · exact ⟨growsSelf s,rfl⟩
      · refine ⟨⟨?_,fun k request asked => ?_⟩,requests⟩
        · rw [log]
          exact List.Subset.refl _
        · rw [requests]
          exact asked
  | interactionResult interaction accountId => exact ⟨growsNoting s _,rfl⟩

theorem authenticatesGrows {interaction uid : String} {response : AuthenticatorResponse} {challenge : String} {time : Nat}
    {users : List Holder} {account : Holder} {credential : Credential} (grows : Grows s t)
    (authenticates : Authenticates verifier s.requests s.log n interaction uid response challenge time users account credential) :
    Authenticates verifier t.requests t.log n interaction uid response challenge time users account credential where
  asked := grows.requests _ _ authenticates.asked
  read := grows.log authenticates.read
  listed := grows.log authenticates.listed
  found := authenticates.found
  held := authenticates.held
  verified := authenticates.verified
  removed := grows.log authenticates.removed

theorem registersGrows {accountId : String} {credential : Credential} {response : AuthenticatorResponse} {name : Option String}
    {challenge : String} {time : Nat} {info : RegistrationInfo} (grows : Grows s t)
    (registers : Registers verifier s.requests s.log n accountId credential response name challenge time info) :
    Registers verifier t.requests t.log n accountId credential response name challenge time info where
  asked := grows.requests _ _ registers.asked
  read := grows.log registers.read
  verified := registers.verified
  credential := registers.credential

theorem justifiedGrows (event : CeremonyEvent) (grows : Grows s t) (justified : Justified verifier s.requests s.log event) :
    Justified verifier t.requests t.log event := by
  cases event with
  | issued key challenge time =>
      obtain ⟨request,inside,issues⟩ := justified
      obtain ⟨k,asked⟩ := List.getElem?_of_mem inside
      exact ⟨request,List.mem_of_getElem? (grows.requests k request asked),issues⟩
  | read k key challenge time =>
      obtain ⟨issuedAt,issued,bounds⟩ := justified
      exact ⟨issuedAt,grows.log issued,bounds⟩
  | listed k users => trivial
  | removed k key =>
      obtain ⟨challenge,time,read⟩ := justified
      exact ⟨challenge,time,grows.log read⟩
  | added k accountId credential =>
      obtain ⟨response,name,challenge,time,info,registers⟩ := justified
      exact ⟨response,name,challenge,time,info,registersGrows grows registers⟩
  | signedIn k interaction accountId =>
      obtain ⟨uid,response,challenge,time,users,account,credential,authenticates,own⟩ := justified
      exact ⟨uid,response,challenge,time,users,account,credential,authenticatesGrows grows authenticates,own⟩

def Growing (F : CeremonyWorld → Prop) : Prop := ∀ s t, Grows s t → F s → F t

theorem Growing.and {F G : CeremonyWorld → Prop} (first : Growing F) (second : Growing G) : Growing fun s => F s ∧ G s :=
  fun s t grows holds => ⟨first s t grows holds.1,second s t grows holds.2⟩

theorem growingAsked (n : Nat) (request : CeremonyRequest) : Growing fun s => s.requests[n]? = some request :=
  fun _ _ grows asked => grows.requests n request asked

theorem growingLogged (event : CeremonyEvent) : Growing fun s => event ∈ s.log := fun _ _ grows inside => grows.log inside

structure Serves (verifier : Verifier) (n : Nat) (K : Contract ceremonies CeremonyWorld) : Prop where
  still : ∀ s, K.rely s s
  grows : ∀ s t, K.rely s t → Grows s t
  call : ∀ s c w, Knows verifier n s c → K.ok s c → K.guarantee s (answerCeremonies n w c s).2

variable (serves : Serves verifier n K) {F : CeremonyWorld → Prop} {Q : Except JsError α → CeremonyWorld → Prop}
include serves

theorem servesStable (growing : Growing F) : Stable K F := fun s t moved holds => growing s t (serves.grows s t moved) holds

theorem servesAsk {c : CeremonyCall} {f : CeremonyAnswer c → Ceremony α} (told : CeremonyAnswer c → CeremonyWorld → Prop)
    (growing : Growing F) (knows : ∀ s, F s → Knows verifier n s c)
    (tells : ∀ s w, F s → told (answerCeremonies n w c s).1 (answerCeremonies n w c s).2)
    (next : ∀ a, Triple (answerCeremonies n) K (fun s => F s ∧ told a s) (f a) Q) :
    Triple (answerCeremonies n) K F (ask (I := ceremonies) c >>= f) Q :=
  tripleAsk (fun a s => F s ∧ told a s) (servesStable serves growing)
    (fun s w holds ok => ⟨serves.call s c w (knows s holds) ok,growing _ _ (callGrows n w c s).1 holds,tells s w holds⟩) next

theorem servesGet {key : String} {f : Option String → Ceremony α} (growing : Growing F)
    (missing : Triple (answerCeremonies n) K F (f none) Q)
    (found : ∀ challenge time, Triple (answerCeremonies n) K (fun s => F s ∧ .read n key challenge time ∈ s.log)
      (f (some challenge)) Q) : Triple (answerCeremonies n) K F (ask (I := ceremonies) (.get key) >>= f) Q := by
  apply servesAsk serves (c := .get key)
    (fun a s => ∀ challenge, a = some challenge → ∃ time, .read n key challenge time ∈ s.log) growing
  · exact fun _ _ => trivial
  · intro s w _
    simp only [answerCeremonies]
    split
    · exact nofun
    · intro challenge same
      cases same
      exact ⟨s.redis.clock,List.mem_cons_self ..⟩
  · intro a
    cases a with
    | none => exact tripleMono missing (fun _ holds => holds.1) fun _ _ ends => ends
    | some challenge =>
        intro s holds
        obtain ⟨time,read⟩ := holds.2 challenge rfl
        exact found challenge time s ⟨holds.1,read⟩

omit serves in
theorem truthyGiven {given text : String} (kept : truthy (some given) = some text) : text = given :=
  (Option.some.inj (Option.filter_eq_some_iff.mp kept).1).symm

theorem servesOrThrow {β : Type} {answer : Except JsError β} {f : β → Ceremony α} (growing : Growing F)
    (failed : ∀ e s, F s → Q (.error e) s) (next : ∀ b, answer = .ok b → Triple (answerCeremonies n) K F (f b) Q) :
    Triple (answerCeremonies n) K F (orThrow answer >>= f) Q := by
  cases answer with
  | error e => exact tripleThrow (servesStable serves growing) (failed e)
  | ok b => exact next b rfl

theorem finishAuthenticationTells (interaction uid : String) (response : AuthenticatorResponse) :
    Triple (answerCeremonies n) K (fun s => s.requests[n]? = some (.passkeyFinish interaction "login" uid (some response)))
      (finishAuthentication verifier uid response) fun r s => ∀ account, r = .ok (some account) →
        Justified verifier s.requests s.log (.signedIn n interaction account.accountId) := by
  unfold finishAuthentication
  have asking := growingAsked n (.passkeyFinish interaction "login" uid (some response))
  apply servesGet serves asking
  · exact tripleThrow (servesStable serves asking) fun _ _ => nofun
  · intro challenge time
    have reading := asking.and (growingLogged (.read n (authenticationKey uid) challenge time))
    cases given : truthy (some challenge) with
    | none => exact tripleThrow (servesStable serves reading) fun _ _ => nofun
    | some expectedChallenge =>
        cases truthyGiven given
        apply servesAsk serves (c := .listUsers) (fun users s => .listed n users ∈ s.log) reading (fun _ _ => trivial)
        · exact fun s w _ => List.mem_cons_self ..
        · intro users
          have listing := reading.and (growingLogged (.listed n users))
          cases found : findUserByPasskeyId response.id users with
          | none => exact tripleThrow (servesStable serves listing) fun _ _ => nofun
          | some account =>
              dsimp only
              cases held : account.credentials.find? (·.id = response.id) with
              | none => exact tripleThrow (servesStable serves listing) fun _ _ => nofun
              | some credential =>
                  apply servesOrThrow serves listing fun _ _ _ => nofun
                  intro outcome verified
                  cases outcome with
                  | none => exact triplePure (servesStable serves listing) fun _ _ => nofun
                  | some newCounter =>
                      apply servesAsk serves (c := .updatePasskeyCounter account.accountId credential.id newCounter)
                        (fun _ _ => True) listing (fun _ _ => trivial) fun _ _ _ => trivial
                      intro updated
                      have updating := listing.and fun _ _ _ _ => trivial
                      apply servesOrThrow serves updating fun _ _ _ => nofun
                      intro _ _
                      apply servesAsk serves (c := .remove (authenticationKey uid))
                        (fun _ s => .removed n (authenticationKey uid) ∈ s.log) updating
                      · exact fun s holds => ⟨challenge,time,holds.1.1.2⟩
                      · exact fun s w _ => List.mem_cons_self ..
                      · intro _
                        refine triplePure (servesStable serves (updating.and (growingLogged _))) ?_
                        rintro s ⟨⟨⟨⟨asked,read⟩,listed⟩,_⟩,removed⟩ _ same
                        cases same
                        exact ⟨uid,response,challenge,time,users,account,credential,
                          ⟨asked,read,listed,found,held,⟨newCounter,verified⟩,removed⟩,rfl⟩

theorem finishRegistrationTells (accountId : String) (response : AuthenticatorResponse) (name : Option String) :
    Triple (answerCeremonies n) K (fun s => s.requests[n]? = some (.registerFinish accountId (some response) name))
      (finishRegistration verifier accountId response ((truthy name).getD "Passkey")) fun _ _ => True := by
  unfold finishRegistration
  have asking := growingAsked n (.registerFinish accountId (some response) name)
  apply servesGet serves asking
  · exact tripleThrow (servesStable serves asking) fun _ _ => trivial
  · intro challenge time
    have reading := asking.and (growingLogged (.read n (registrationKey accountId) challenge time))
    cases given : truthy (some challenge) with
    | none => exact tripleThrow (servesStable serves reading) fun _ _ => trivial
    | some expectedChallenge =>
        cases truthyGiven given
        apply servesOrThrow serves reading fun _ _ _ => trivial
        intro outcome verified
        cases outcome with
        | none => exact triplePure (servesStable serves reading) fun _ _ => trivial
        | some info =>
            apply servesAsk serves
              (c := .addPasskey accountId (newCredential response ((truthy name).getD "Passkey") info)) (fun _ _ => True) reading
            · exact fun s holds => ⟨response,name,challenge,time,info,holds.1,holds.2,verified,rfl⟩
            · exact fun _ _ _ => trivial
            · intro added
              have adding := reading.and fun _ _ _ _ => trivial
              apply servesOrThrow serves adding fun _ _ _ => trivial
              intro _ _
              apply servesAsk serves (c := .remove (registrationKey accountId)) (fun _ _ => True) adding
              · exact fun s holds => ⟨challenge,time,holds.1.2⟩
              · exact fun _ _ _ => trivial
              · exact fun _ => triplePure (servesStable serves (adding.and fun _ _ _ _ => trivial)) fun _ _ => trivial

theorem servesLast {c : CeremonyCall} (growing : Growing F) (knows : ∀ s, F s → Knows verifier n s c) :
    Triple (answerCeremonies n) K F (ask (I := ceremonies) c : Ceremony (ceremonies.Answer c)) fun _ _ => True := by
  apply servesAsk serves (f := Program.pure) (fun _ _ => True) growing knows fun _ _ _ => trivial
  exact fun _ => triplePure (servesStable serves (growing.and fun _ _ _ _ => trivial)) fun _ _ => trivial

theorem requestTells (request : CeremonyRequest) :
    Triple (answerCeremonies n) K (fun s => s.requests[n]? = some request) (request.program verifier) fun _ _ => True := by
  have asking := growingAsked n request
  cases request with
  | registerStart accountId challenge =>
      exact servesLast serves asking fun s asked => ⟨_,List.mem_of_getElem? asked,rfl⟩
  | registerFinish accountId response name =>
      cases response with
      | none => exact triplePure (servesStable serves asking) fun _ _ => trivial
      | some response =>
          apply tripleBind serves.still (fun _ _ => True)
          · exact tripleMono (finishRegistrationTells serves accountId response name) (fun _ => id) fun r _ _ => by
              cases r <;> trivial
          · exact fun _ => triplePure (servesStable serves fun _ _ _ => id) fun _ _ => trivial
  | passkeyStart webauthnEnabled prompt uid challenge =>
      simp only [CeremonyRequest.program]
      split
      · exact tripleThrow (servesStable serves asking) fun _ _ => trivial
      · rename_i enabled
        split
        · exact tripleThrow (servesStable serves asking) fun _ _ => trivial
        · rename_i login
          refine servesLast serves asking fun s asked => ⟨_,List.mem_of_getElem? asked,?_⟩
          exact if_pos ⟨by simpa using enabled,not_not.mp login⟩
  | passkeyFinish interaction prompt uid response =>
      simp only [CeremonyRequest.program]
      split
      · exact tripleThrow (servesStable serves asking) fun _ _ => trivial
      · rename_i login
        cases not_not.mp login
        cases response with
        | none => exact triplePure (servesStable serves asking) fun _ _ => trivial
        | some response =>
            apply tripleBind serves.still fun result s => ∀ account, result = some account →
              Justified verifier s.requests s.log (.signedIn n interaction account.accountId)
            · exact tripleMono (finishAuthenticationTells serves interaction uid response) (fun _ => id) fun r s told => by
                cases r with
                | ok result => exact fun account same => told account (congrArg _ same)
                | error e => trivial
            · intro result
              have growing : Growing fun s => ∀ account, result = some account →
                  Justified verifier s.requests s.log (.signedIn n interaction account.accountId) :=
                fun s t grows told account same => justifiedGrows _ grows (told account same)
              cases result with
              | none => exact triplePure (servesStable serves growing) fun _ _ => trivial
              | some account => exact servesLast serves growing fun s told => told account rfl

end Programs

structure Invariant (verifier : Verifier) (ok : CeremonyWorld → CeremonyCall → Prop) (Inv : CeremonyWorld → Prop) : Prop where
  call : ∀ n s c w, Inv s → Knows verifier n s c → ok s c → Inv (answerCeremonies n w c s).2
  pass : ∀ s ms, Inv s → Inv {s with redis := s.redis.pass ms}
  users : ∀ s users, Inv s → Inv {s with users := users}
  noted : ∀ s request, Inv s → Inv {s with requests := s.requests ++ [request]}

structure Minding (Inv : CeremonyWorld → Prop) (s t : CeremonyWorld) : Prop where
  kept : Inv s → Inv t
  grows : Grows s t

def ceremonyContract (ok : CeremonyWorld → CeremonyCall → Prop) (Inv : CeremonyWorld → Prop) :
    Contract ceremonies CeremonyWorld := ⟨ok,Minding Inv,fun s t => Minding Inv s t ∧ t.requests = s.requests⟩

namespace CeremonyPool
variable {verifier : Verifier} {ok : CeremonyWorld → CeremonyCall → Prop} {Inv : CeremonyWorld → Prop} {pool : CeremonyPool}
  {s t u : CeremonyWorld} {n m : Nat}

theorem mindingTrans (first : Minding Inv s t) (second : Minding Inv t u) : Minding Inv s u :=
  ⟨second.kept ∘ first.kept,growsTrans first.grows second.grows⟩

theorem mindingSelf (s : CeremonyWorld) : Minding Inv s s := ⟨id,growsSelf s⟩

theorem mindingApart (_ : n ≠ m) (moved : (ceremonyContract ok Inv).guarantee s t) : (ceremonyContract ok Inv).rely s t := moved.1

theorem idle (s : CeremonyWorld) : (ceremonyContract ok Inv).guarantee s s := ⟨mindingSelf s,rfl⟩

theorem invariantServes (invariant : Invariant verifier ok Inv) (n : Nat) : Serves verifier n (ceremonyContract ok Inv) where
  still := mindingSelf
  grows _ _ moved := moved.grows
  call s c w knows free :=
    ⟨⟨fun holds => invariant.call n s c w holds knows free,(callGrows n w c s).1⟩,(callGrows n w c s).2⟩

structure Keeping (ok : CeremonyWorld → CeremonyCall → Prop) (Inv : CeremonyWorld → Prop) (pool : CeremonyPool) : Prop where
  steady : pool.Steady answerCeremonies CeremonyCall.awaits fun _ => ceremonyContract ok Inv
  holds : Inv pool.state
  numbered : pool.state.requests.length = pool.threads.length

def Disciplined (ok : CeremonyWorld → CeremonyCall → Prop) (pool : CeremonyPool) : CeremonyMove → Prop
  | .proceed n _ => pool.Ready (fun _ => ok) n
  | _ => True

theorem editKeeping {f : CeremonyWorld → CeremonyWorld} (keeping : Keeping ok Inv pool) (minding : Minding Inv pool.state (f pool.state))
    (requests : (f pool.state).requests = pool.state.requests) : Keeping ok Inv (pool.edit f) where
  steady := Pool.steadyEdit (fun _ _ _ _ => mindingTrans) keeping.steady fun _ => minding
  holds := minding.kept keeping.holds
  numbered := (congrArg List.length requests).trans keeping.numbered

theorem stepKeeping {move : CeremonyMove} (invariant : Invariant verifier ok Inv) (keeping : Keeping ok Inv pool)
    (disciplined : Disciplined ok pool move) : Keeping ok Inv (step verifier pool move) := by
  cases move with
  | request request =>
      have noted : Minding Inv pool.state {pool.state with requests := pool.state.requests ++ [request]} := by
        refine ⟨invariant.noted _ request,List.Subset.refl _,fun k asked found => ?_⟩
        exact (List.getElem?_append_left (List.getElem?_eq_some_iff.mp found).1).trans found
      have steady := Pool.steadyEdit (f := fun s => {s with requests := s.requests ++ [request]})
        (K := fun _ => ceremonyContract ok Inv) (fun _ _ _ _ => mindingTrans) keeping.steady fun _ => noted
      have asked : (pool.state.requests ++ [request])[pool.threads.length]? = some request := by
        rw [← keeping.numbered]
        exact List.getElem?_concat_length
      have instant (c : CeremonyCall) : c.awaits ≠ false := nofun
      have keeps := soundKeeps (fun c never => absurd never (instant c)) (idle _)
        (requestTells (invariantServes invariant pool.threads.length) request
          {pool.state with requests := pool.state.requests ++ [request]} asked)
      obtain ⟨steady,kept⟩ := Pool.steadySpawn (fun _ _ _ _ => mindingTrans) mindingApart steady keeps
      refine ⟨steady,kept.1.kept (noted.kept keeping.holds),?_⟩
      rw [step,kept.2]
      simp [Pool.spawn,Pool.edit,keeping.numbered]
  | proceed n failure =>
      obtain ⟨steady,kept⟩ := Pool.steadyProceed (fun _ _ _ _ => mindingTrans) mindingApart (w := failure)
        (mindingSelf _) (idle _) keeping.steady disciplined
      refine ⟨steady,kept.1.kept keeping.holds,?_⟩
      rw [step,kept.2,Pool.proceedLength]
      exact keeping.numbered
  | pass ms =>
      exact editKeeping (f := fun s => {s with redis := s.redis.pass ms}) keeping
        ⟨invariant.pass _ ms,List.Subset.refl _,fun _ _ => id⟩ rfl
  | editUsers users =>
      exact editKeeping (f := fun s => {s with users := users}) keeping
        ⟨invariant.users _ users,List.Subset.refl _,fun _ _ => id⟩ rfl

theorem runKeeping {moves : List CeremonyMove} (invariant : Invariant verifier ok Inv) (keeping : Keeping ok Inv pool)
    (disciplined : EachStep (step verifier) (Disciplined ok) moves pool) : Keeping ok Inv (run verifier moves pool) :=
  eachStepKeeps (Keeping ok Inv) (fun _ _ => stepKeeping invariant) keeping disciplined

theorem beginKeeping {users : List Holder} (holds : Inv {users := users}) : Keeping ok Inv (begin users) :=
  ⟨Pool.steadyEmpty _,holds,rfl⟩

theorem freely (moves : List CeremonyMove) (pool : CeremonyPool) :
    EachStep (step verifier) (Disciplined fun _ _ => True) moves pool := by
  induction moves generalizing pool with
  | nil => trivial
  | cons move rest ih =>
      refine ⟨?_,ih _⟩
      cases move with
      | proceed n failure =>
          unfold Disciplined Pool.Ready
          dsimp only
          split <;> trivial
      | _ => trivial

end CeremonyPool

structure Waiting (s : CeremonyWorld) (key : String) (entry : Entry) (challenge : String) (issuedAt : Nat) : Prop where
  entry : entry = ⟨.text [("challenge",.string challenge)],some (issuedAt + 1000 * challengeTtl)⟩
  issued : .issued key challenge issuedAt ∈ s.log
  past : issuedAt ≤ s.redis.clock

structure Kept (verifier : Verifier) (s : CeremonyWorld) : Prop where
  stored : ∀ key entry, s.redis.find (.record challengeModel key) = some entry →
    ∃ challenge issuedAt, Waiting s key entry challenge issuedAt
  lawful : Lawful (Justified verifier s.requests) s.log

section Kept
variable {verifier : Verifier} {s : CeremonyWorld} {key challenge : String}

theorem storingFind (s : CeremonyWorld) (key challenge other : String) :
    (s.storing key challenge).redis.find (.record challengeModel other) =
      if other = key then some ⟨.text [("challenge",.string challenge)],some (s.redis.clock + 1000 * challengeTtl)⟩
      else s.redis.find (.record challengeModel other) := by
  have stored : (s.storing key challenge).redis =
      s.redis.exec (RedisAdapter.recordWrites challengeModel key [("challenge",.string challenge)] (some challengeTtl)) := rfl
  rw [stored]
  split
  · rename_i same
    subst same
    exact RedisAdapter.recordStored ..
  · rename_i apart
    refine execOther fun write member same => apart ?_
    rw [RedisAdapter.recordWritesKeys member] at same
    injection same

theorem removingFind (s : CeremonyWorld) (key other : String) :
    (s.removing key).redis.find (.record challengeModel other) =
      if other = key then none else s.redis.find (.record challengeModel other) := by
  have removed : (s.removing key).redis = s.redis.put (.record challengeModel key) none := rfl
  rw [removed,Redis.findPut]
  by_cases same : other = key
  · simp [same]
  · rw [if_neg same,if_neg fun equal => same (by injection equal)]

theorem storingClock (s : CeremonyWorld) (key challenge : String) : (s.storing key challenge).redis.clock = s.redis.clock :=
  execClock ..

theorem challengeInTime (kept : Kept verifier s) (read : s.challenge key = some challenge) :
    InTime s.log key challenge s.redis.clock := by
  obtain ⟨data,payload,text⟩ := Option.bind_eq_some_iff.mp read
  obtain ⟨entry,found,value⟩ := Option.bind_eq_some_iff.mp payload
  obtain ⟨stored,issuedAt,waiting⟩ := kept.stored key entry found
  have live := Redis.findLive found
  have entered := waiting.entry
  subst entered
  cases value
  have same : stored = challenge := by simpa [Object.get,Json.string?] using text
  subst same
  exact ⟨issuedAt,waiting.issued,waiting.past,by simpa using live⟩

theorem keptNoting {event : CeremonyEvent} (kept : Kept verifier s) (justified : Justified verifier s.requests s.log event) :
    Kept verifier (s.noting event) where
  stored := by
    intro key entry found
    obtain ⟨challenge,issuedAt,waiting⟩ := kept.stored key entry found
    exact ⟨challenge,issuedAt,waiting.entry,List.mem_cons_of_mem _ waiting.issued,waiting.past⟩
  lawful := ⟨justified,kept.lawful⟩

theorem keptStoring (kept : Kept verifier s) (issued : .issued key challenge s.redis.clock ∈ s.log) :
    Kept verifier (s.storing key challenge) where
  stored := by
    intro other entry found
    rw [storingFind] at found
    split at found
    · rename_i same
      subst same
      cases found
      exact ⟨challenge,s.redis.clock,rfl,issued,(storingClock s other challenge).symm.le⟩
    · obtain ⟨waiting,issuedAt,before⟩ := kept.stored other entry found
      exact ⟨waiting,issuedAt,before.entry,before.issued,before.past.trans (storingClock s key challenge).symm.le⟩
  lawful := kept.lawful

theorem keptRemoving (kept : Kept verifier s) : Kept verifier (s.removing key) where
  stored := by
    intro other entry found
    rw [removingFind] at found
    split at found
    · cases found
    · obtain ⟨waiting,issuedAt,before⟩ := kept.stored other entry found
      exact ⟨waiting,issuedAt,before.entry,before.issued,before.past⟩
  lawful := kept.lawful

theorem keptAlike {t : CeremonyWorld} (kept : Kept verifier s) (redis : t.redis = s.redis) (log : t.log = s.log)
    (requests : t.requests = s.requests) : Kept verifier t where
  stored := by
    intro key entry found
    rw [redis] at found
    obtain ⟨challenge,issuedAt,waiting⟩ := kept.stored key entry found
    exact ⟨challenge,issuedAt,waiting.entry,by rw [log]; exact waiting.issued,by rw [redis]; exact waiting.past⟩
  lawful := by
    rw [log,requests]
    exact kept.lawful

theorem keptEditing {accountId : String} {edit : List Credential → Except JsError (List Credential)} (kept : Kept verifier s) :
    Kept verifier (s.editing accountId edit).2 := by
  obtain ⟨log,requests,redis⟩ := editingGrows s accountId edit
  exact keptAlike kept redis log requests

theorem keptCall (n : Nat) (c : CeremonyCall) (w : Option JsError) (kept : Kept verifier s) (knows : Knows verifier n s c) :
    Kept verifier (answerCeremonies n w c s).2 := by
  cases c with
  | store key challenge =>
      have noted : Kept verifier (s.noting (.issued key challenge s.redis.clock)) := keptNoting kept knows
      exact keptStoring noted (List.mem_cons_self ..)
  | get key =>
      simp only [answerCeremonies]
      split
      · exact kept
      · rename_i read
        exact keptNoting kept (challengeInTime kept read)
  | remove key =>
      have noted : Kept verifier (s.noting (.removed n key)) := keptNoting kept knows
      exact keptRemoving noted
  | listUsers => exact keptNoting kept trivial
  | addPasskey accountId credential =>
      simp only [answerCeremonies]
      split
      · exact kept
      · have edited : Kept verifier (s.editing accountId (withAdded credential)).2 := keptEditing kept
        obtain ⟨log,requests,_⟩ := editingGrows s accountId (withAdded credential)
        split
        · rename_i same
          rw [same] at edited log requests
          refine keptNoting edited ?_
          rw [requests,log]
          exact knows
        · rename_i same
          rw [same] at edited
          exact edited
  | updatePasskeyCounter accountId credentialId newCounter =>
      simp only [answerCeremonies]
      split
      · exact kept
      · exact keptEditing kept
  | interactionResult interaction accountId => exact keptNoting kept knows

theorem keptInvariant (verifier : Verifier) : Invariant verifier (fun _ _ => True) (Kept verifier) where
  call n s c w kept knows _ := keptCall n c w kept knows
  pass s ms kept := by
    refine ⟨fun key entry found => ?_,kept.lawful⟩
    obtain ⟨challenge,issuedAt,waiting⟩ := kept.stored key entry (Redis.passLive found)
    exact ⟨challenge,issuedAt,waiting.entry,waiting.issued,Nat.le_add_right_of_le waiting.past⟩
  users s users kept := keptAlike kept rfl rfl rfl
  noted s request kept := by
    refine ⟨fun key entry found => ?_,lawfulMono kept.lawful fun history event justified => ?_⟩
    · obtain ⟨challenge,issuedAt,waiting⟩ := kept.stored key entry found
      exact ⟨challenge,issuedAt,waiting.entry,waiting.issued,waiting.past⟩
    · have grows : Grows {s with log := history} {s with requests := s.requests ++ [request], log := history} :=
        ⟨List.Subset.refl _,fun k asked found =>
          (List.getElem?_append_left (List.getElem?_eq_some_iff.mp found).1).trans found⟩
      exact justifiedGrows event grows justified

end Kept

section Bound
variable {verifier : Verifier} {users : List Holder} {moves : List CeremonyMove}

def finalState (verifier : Verifier) (users : List Holder) (moves : List CeremonyMove) : CeremonyWorld :=
  (CeremonyPool.run verifier moves (CeremonyPool.begin users)).state

theorem beginKept (users : List Holder) : Kept verifier {users := users} := ⟨fun key entry found => (by cases found),trivial⟩

theorem finalKept (verifier : Verifier) (users : List Holder) (moves : List CeremonyMove) :
    Kept verifier (finalState verifier users moves) :=
  (CeremonyPool.runKeeping (keptInvariant verifier) (CeremonyPool.beginKeeping (beginKept users))
    (CeremonyPool.freely moves _)).holds

theorem keyParts (a b : String) : registrationKey a ≠ authenticationKey b ∧
    (registrationKey a = registrationKey b → a = b) ∧ (authenticationKey a = authenticationKey b → a = b) := by
  refine ⟨fun same => ?_,fun same => ?_,fun same => ?_⟩
  · have parts := congrArg String.toList same
    simp [registrationKey,authenticationKey] at parts
  · have parts := congrArg String.toList same
    exact String.toList_inj.mp (by simpa [registrationKey] using parts)
  · have parts := congrArg String.toList same
    exact String.toList_inj.mp (by simpa [authenticationKey] using parts)

theorem authenticationIssued {request : CeremonyRequest} {uid challenge : String}
    (issues : request.issues = some (authenticationKey uid,challenge)) : request = .passkeyStart true "login" uid challenge := by
  cases request with
  | registerStart accountId made =>
      exact absurd (Prod.mk.inj (Option.some.inj issues)).1 (keyParts accountId uid).1
  | passkeyStart webauthnEnabled prompt path made =>
      simp only [CeremonyRequest.issues] at issues
      split at issues
      · rename_i guards
        obtain ⟨same,rfl⟩ := Prod.mk.inj (Option.some.inj issues)
        obtain ⟨rfl,rfl⟩ := guards
        cases (keyParts path uid).2.2 same
        rfl
      · cases issues
  | registerFinish accountId response name => cases issues
  | passkeyFinish interaction prompt path response => cases issues

theorem registrationIssued {request : CeremonyRequest} {accountId challenge : String}
    (issues : request.issues = some (registrationKey accountId,challenge)) : request = .registerStart accountId challenge := by
  cases request with
  | registerStart own made =>
      obtain ⟨same,rfl⟩ := Prod.mk.inj (Option.some.inj issues)
      cases (keyParts own accountId).2.1 same
      rfl
  | passkeyStart webauthnEnabled prompt path made =>
      simp only [CeremonyRequest.issues] at issues
      split at issues
      · exact absurd (Prod.mk.inj (Option.some.inj issues)).1.symm (keyParts accountId path).1
      · cases issues
  | registerFinish accountId response name => cases issues
  | passkeyFinish interaction prompt path response => cases issues

theorem readIssued {history : List CeremonyEvent} {requests : List CeremonyRequest} {n : Nat} {key challenge : String}
    {time : Nat} (lawful : Lawful (Justified verifier requests) history) (read : .read n key challenge time ∈ history) :
    ∃ request ∈ requests, request.issues = some (key,challenge) ∧ InTime history key challenge time := by
  obtain ⟨later,earlier,rfl,issuedAt,issued,bounds⟩ := lawfulMember lawful read
  have inside : .issued key challenge issuedAt ∈ later ++ .read n key challenge time :: earlier :=
    List.mem_append_right _ (List.mem_cons_of_mem _ issued)
  obtain ⟨_,_,_,request,asked,issues⟩ := lawfulMember lawful inside
  exact ⟨request,asked,issues,issuedAt,inside,bounds⟩

theorem lawfulEarlier {α : Type} {allowed : List α → α → Prop} {later earlier : List α}
    (lawful : Lawful allowed (later ++ earlier)) : Lawful allowed earlier := by
  induction later with
  | nil => exact lawful
  | cons event rest ih => exact ih lawful.2

/- In every run, whoever is signed in held the credential of the response, which was verified against a challenge that was made
for a sign-in under the same uid of the path a minute before at most. The interaction that is signed in is the cookie's. -/
theorem signInsBound (verifier : Verifier) (users : List Holder) (moves : List CeremonyMove) (later earlier : List CeremonyEvent)
    (n : Nat) (interaction accountId : String)
    (parted : (finalState verifier users moves).log = later ++ .signedIn n interaction accountId :: earlier) :
    ∃ uid response challenge time users' account credential,
      Authenticates verifier (finalState verifier users moves).requests earlier n interaction uid response challenge time users'
        account credential ∧ account.accountId = accountId ∧ InTime earlier (authenticationKey uid) challenge time ∧
      .passkeyStart true "login" uid challenge ∈ (finalState verifier users moves).requests := by
  have lawful := (finalKept verifier users moves).lawful
  obtain ⟨uid,response,challenge,time,listed,account,credential,authenticates,own⟩ := lawfulAt lawful parted
  rw [parted] at lawful
  obtain ⟨request,asked,issues,inTime⟩ := readIssued (lawfulEarlier lawful).2 authenticates.read
  cases authenticationIssued issues
  exact ⟨uid,response,challenge,time,listed,account,credential,authenticates,own,inTime,asked⟩

/- In every run, a credential is added for a response that was verified against a challenge that was made for a registration of the
same account a minute before at most. -/
theorem registrationsBound (verifier : Verifier) (users : List Holder) (moves : List CeremonyMove)
    (later earlier : List CeremonyEvent) (n : Nat) (accountId : String) (credential : Credential)
    (parted : (finalState verifier users moves).log = later ++ .added n accountId credential :: earlier) :
    ∃ response name challenge time info,
      Registers verifier (finalState verifier users moves).requests earlier n accountId credential response name challenge time
        info ∧ InTime earlier (registrationKey accountId) challenge time ∧
      .registerStart accountId challenge ∈ (finalState verifier users moves).requests := by
  have lawful := (finalKept verifier users moves).lawful
  obtain ⟨response,name,challenge,time,info,registers⟩ := lawfulAt lawful parted
  rw [parted] at lawful
  obtain ⟨request,asked,issues,inTime⟩ := readIssued (lawfulEarlier lawful).2 registers.read
  cases registrationIssued issues
  exact ⟨response,name,challenge,time,info,registers,inTime,asked⟩

def namingVerifier : Verifier where
  verifyRegistrationResponse response expectedChallenge := .ok
    (if response.proof = expectedChallenge ++ ".key" then some ⟨"key",0,"singleDevice",false⟩ else none)
  verifyAuthenticationResponse response expectedChallenge credential := .ok
    (if response.proof = expectedChallenge ++ "." ++ credential.publicKey then some (credential.counter + 1) else none)

def alicesPhone : AuthenticatorResponse := {id := "phone", proof := "c0.key"}

def registering : List CeremonyMove := [.request (.registerStart "alice" "c0"),.proceed 0 none,
  .request (.registerFinish "alice" (some alicesPhone) none),.proceed 1 none,.proceed 1 none,.proceed 1 none]

def signingIn : List CeremonyMove := [.request (.passkeyStart true "login" "u1" "c1"),.proceed 2 none,.pass 30000,
  .request (.passkeyFinish "u1" "login" "u1" (some {alicesPhone with proof := "c1.key"})),
  .proceed 3 none,.proceed 3 none,.proceed 3 none,.proceed 3 none,.proceed 3 none]

def phoneCredential : Credential :=
  {id := "phone", name := some "Passkey", counter := 0, publicKey := "key", deviceType := "singleDevice", backedUp := false}

theorem phoneRegistered : ∃ response name challenge time info,
    Registers namingVerifier (finalState namingVerifier [⟨"alice",[]⟩] registering).requests
      [.read 1 "reg:alice" "c0" 0,.issued "reg:alice" "c0" 0] 1 "alice" phoneCredential response name challenge time info ∧
    InTime [.read 1 "reg:alice" "c0" 0,.issued "reg:alice" "c0" 0] (registrationKey "alice") challenge time ∧
    .registerStart "alice" challenge ∈ (finalState namingVerifier [⟨"alice",[]⟩] registering).requests :=
  registrationsBound namingVerifier [⟨"alice",[]⟩] registering [.removed 1 "reg:alice"] _ 1 "alice" phoneCredential
    (by decide +kernel)

theorem aliceSignedIn : ∃ earlier uid response challenge time users' account credential,
    Authenticates namingVerifier (finalState namingVerifier [⟨"alice",[]⟩] (registering ++ signingIn)).requests earlier 3 "u1" uid
      response challenge time users' account credential ∧ account.accountId = "alice" ∧
    InTime earlier (authenticationKey uid) challenge time ∧
    .passkeyStart true "login" uid challenge ∈
      (finalState namingVerifier [⟨"alice",[]⟩] (registering ++ signingIn)).requests :=
  ⟨_,signInsBound namingVerifier [⟨"alice",[]⟩] (registering ++ signingIn) []
    (finalState namingVerifier [⟨"alice",[]⟩] (registering ++ signingIn)).log.tail 3 "u1" "alice" (by decide +kernel)⟩

end Bound

def NewChallenge (s : CeremonyWorld) : CeremonyCall → Prop
  | .store _ challenge => ∀ key issuedAt, .issued key challenge issuedAt ∉ s.log
  | _ => True

def Spent (history : List CeremonyEvent) (challenge : String) : Prop :=
  ∃ n key time, Follows history (.read n key challenge time) (.removed n key)

def Unspent (history : List CeremonyEvent) : CeremonyEvent → Prop
  | .read _ _ challenge _ => ¬ Spent history challenge
  | _ => True

structure Single (verifier : Verifier) (s : CeremonyWorld) : Prop extends Kept verifier s where
  unique : ∀ key key' challenge issuedAt issuedAt', .issued key challenge issuedAt ∈ s.log →
    .issued key' challenge issuedAt' ∈ s.log → key = key'
  gone : ∀ challenge, Spent s.log challenge → ∀ key, s.challenge key ≠ some challenge
  unspent : Lawful Unspent s.log

section Single
variable {verifier : Verifier} {s t : CeremonyWorld} {key challenge : String} {event : CeremonyEvent}

theorem spentCons : Spent (event :: s.log) challenge ↔
    (∃ n key time, event = .removed n key ∧ .read n key challenge time ∈ s.log) ∨ Spent s.log challenge := by
  constructor
  · rintro ⟨n,key,time,follows⟩
    rcases followsCons.mp follows with ⟨same,inside⟩ | follows
    · exact .inl ⟨n,key,time,same,inside⟩
    · exact .inr ⟨n,key,time,follows⟩
  · rintro (⟨n,key,time,same,inside⟩ | ⟨n,key,time,follows⟩)
    · exact ⟨n,key,time,followsCons.mpr (.inl ⟨same,inside⟩)⟩
    · exact ⟨n,key,time,followsCons.mpr (.inr follows)⟩

theorem spentIssued (kept : Kept verifier s) (spent : Spent s.log challenge) :
    ∃ key issuedAt, .issued key challenge issuedAt ∈ s.log := by
  obtain ⟨n,key,time,follows⟩ := spent
  obtain ⟨later,earlier,parted,issuedAt,issued,_⟩ := lawfulMember kept.lawful (followsBoth follows).1
  refine ⟨key,issuedAt,?_⟩
  rw [parted]
  exact List.mem_append_right _ (List.mem_cons_of_mem _ issued)

theorem singleNoting (single : Single verifier s) (kept : Kept verifier (s.noting event))
    (quiet : ∀ key challenge issuedAt, event ≠ .issued key challenge issuedAt) (going : ∀ n key, event ≠ .removed n key)
    (unspent : Unspent s.log event) : Single verifier (s.noting event) where
  toKept := kept
  unique := by
    intro key key' challenge issuedAt issuedAt' first second
    exact single.unique key key' challenge issuedAt issuedAt'
      ((List.mem_cons.mp first).resolve_left fun same => quiet _ _ _ same.symm)
      ((List.mem_cons.mp second).resolve_left fun same => quiet _ _ _ same.symm)
  gone := by
    intro challenge spent
    rcases spentCons.mp spent with ⟨n,key,_,same,_⟩ | before
    · exact absurd same (going n key)
    · exact single.gone challenge before
  unspent := ⟨unspent,single.unspent⟩

theorem singleAlike (single : Single verifier s) (kept : Kept verifier t) (log : t.log = s.log)
    (fewer : ∀ key challenge, t.challenge key = some challenge → s.challenge key = some challenge) : Single verifier t where
  toKept := kept
  unique := by
    rw [log]
    exact single.unique
  gone := by
    rw [log]
    exact fun challenge spent key found => single.gone challenge spent key (fewer key challenge found)
  unspent := by
    rw [log]
    exact single.unspent

theorem storingChallenge (s : CeremonyWorld) (key challenge other : String) : (s.storing key challenge).challenge other =
    if other = key then some challenge else s.challenge other := by
  unfold CeremonyWorld.challenge Redis.payload
  rw [storingFind]
  split
  · simp [Value.payload?,Object.get,Json.string?]
  · rfl

theorem removingChallenge (s : CeremonyWorld) (key other : String) : (s.removing key).challenge other =
    if other = key then none else s.challenge other := by
  unfold CeremonyWorld.challenge Redis.payload
  rw [removingFind]
  split
  · rfl
  · rfl

theorem singleStoring (single : Single verifier s) (fresh : NewChallenge s (.store key challenge))
    (kept : Kept verifier ((s.storing key challenge).noting (.issued key challenge s.redis.clock))) :
    Single verifier ((s.storing key challenge).noting (.issued key challenge s.redis.clock)) where
  toKept := kept
  unique := by
    intro first second made issuedAt issuedAt' issued issued'
    rcases List.mem_cons.mp issued with same | before
    · cases same
      rcases List.mem_cons.mp issued' with same | before'
      · cases same
        rfl
      · exact absurd before' (fresh second issuedAt')
    · rcases List.mem_cons.mp issued' with same | before'
      · cases same
        exact absurd before (fresh first issuedAt)
      · exact single.unique first second made issuedAt issuedAt' before before'
  gone := by
    intro made spent other found
    have before : Spent s.log made := by
      rcases spentCons.mp spent with ⟨n,removed,_,same,_⟩ | before
      · cases same
      · exact before
    have found := (storingChallenge s key challenge other).symm.trans found
    split at found
    · cases found
      obtain ⟨issuedKey,issuedAt,issued⟩ := spentIssued single.toKept before
      exact fresh issuedKey issuedAt issued
    · exact single.gone made before other found
  unspent := ⟨trivial,single.unspent⟩

theorem singleRemoving {n : Nat} (single : Single verifier s) (kept : Kept verifier ((s.removing key).noting (.removed n key))) :
    Single verifier ((s.removing key).noting (.removed n key)) where
  toKept := kept
  unique := by
    intro first second made issuedAt issuedAt' issued issued'
    exact single.unique first second made issuedAt issuedAt' ((List.mem_cons.mp issued).resolve_left nofun)
      ((List.mem_cons.mp issued').resolve_left nofun)
  gone := by
    intro made spent other found
    have found := (removingChallenge s key other).symm.trans found
    split at found
    · cases found
    · rename_i apart
      rcases spentCons.mp spent with ⟨_,_,time,same,read⟩ | before
      · cases same
        -- the other key holds the same challenge, which was issued for the removed one only
        obtain ⟨request,_,_,issuedAt',here,_⟩ := readIssued single.lawful read
        obtain ⟨issuedAt,there,_⟩ := challengeInTime single.toKept found
        exact apart (single.unique other key made issuedAt issuedAt' there here)
      · exact single.gone made before other found
  unspent := ⟨trivial,single.unspent⟩

theorem singleInvariant (verifier : Verifier) : Invariant verifier NewChallenge (Single verifier) where
  call n s c w single knows fresh := by
    have kept := keptCall n c w single.toKept knows
    cases c with
    | store key challenge => exact singleStoring single fresh kept
    | get key =>
        simp only [answerCeremonies] at kept ⊢
        split
        · exact single
        · rename_i challenge read
          rw [read] at kept
          exact singleNoting single kept nofun nofun fun spent => single.gone challenge spent key read
    | remove key => exact singleRemoving single kept
    | listUsers => exact singleNoting single kept nofun nofun trivial
    | addPasskey accountId credential =>
        obtain ⟨log,requests,redis⟩ := editingGrows s accountId (withAdded credential)
        simp only [answerCeremonies] at kept ⊢
        cases w with
        | some e => exact single
        | none =>
            dsimp only at kept ⊢
            have edited : Single verifier (s.editing accountId (withAdded credential)).2 :=
              singleAlike single (keptEditing single.toKept) log fun key challenge found => by
                unfold CeremonyWorld.challenge at found ⊢
                rw [redis] at found
                exact found
            split
            · rename_i same
              rw [same] at edited kept
              exact singleNoting edited kept nofun nofun trivial
            · rename_i same
              rw [same] at edited
              exact edited
    | updatePasskeyCounter accountId credentialId newCounter =>
        obtain ⟨log,requests,redis⟩ := editingGrows s accountId (withCounter credentialId newCounter)
        simp only [answerCeremonies] at kept ⊢
        cases w with
        | some e => exact single
        | none =>
            refine singleAlike single kept log fun key challenge found => ?_
            unfold CeremonyWorld.challenge at found ⊢
            rw [redis] at found
            exact found
    | interactionResult interaction accountId => exact singleNoting single kept nofun nofun trivial
  pass s ms single := by
    refine singleAlike single ((keptInvariant verifier).pass s ms single.toKept) rfl fun key challenge found => ?_
    obtain ⟨data,payload,text⟩ := Option.bind_eq_some_iff.mp found
    obtain ⟨entry,live,value⟩ := Option.bind_eq_some_iff.mp payload
    exact Option.bind_eq_some_iff.mpr ⟨data,Option.bind_eq_some_iff.mpr ⟨entry,Redis.passLive live,value⟩,text⟩
  users s users single := singleAlike single ((keptInvariant verifier).users s users single.toKept) rfl fun _ _ => id
  noted s request single := singleAlike single ((keptInvariant verifier).noted s request single.toKept) rfl fun _ _ => id

end Single

/- Where no challenge is made twice, none is read after a request that had read it has come to its end. -/
theorem challengesSpent (verifier : Verifier) (users : List Holder) (moves : List CeremonyMove)
    (fresh : EachStep (CeremonyPool.step verifier) (CeremonyPool.Disciplined NewChallenge) moves (CeremonyPool.begin users)) :
    Lawful Unspent (finalState verifier users moves).log := by
  have nothing : Single verifier {users := users} := by
    refine ⟨beginKept users,fun _ _ _ _ _ issued => (nomatch issued),fun challenge spent => ?_,trivial⟩
    obtain ⟨n,key,time,follows⟩ := spent
    cases (followsBoth follows).1
  exact (CeremonyPool.runKeeping (singleInvariant verifier) (CeremonyPool.beginKeeping nothing) fresh).holds.unspent

theorem registrationSpent : Lawful Unspent (finalState namingVerifier [⟨"alice",[]⟩] (registering ++
    [.request (.registerFinish "alice" (some alicesPhone) none),.proceed 2 none])).log := by
  refine challengesSpent namingVerifier [⟨"alice",[]⟩] _ ⟨trivial,?_,trivial,trivial,trivial,trivial,trivial,trivial,trivial⟩
  exact fun _ _ => List.not_mem_nil

end WebAuthn
end Passmower
