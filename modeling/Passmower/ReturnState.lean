import Passmower.Encoding.Base64
import Passmower.Encoding.JsonReading

/-! The state of a forward-auth sign-in: how it is signed, and what verifying it accepts. -/
namespace Passmower
open Encoding

namespace ReturnState

structure Url where
  href : Utf16
  hostname : Utf16
  deriving DecidableEq

inductive Thrown where
  | rangeError
  | typeError
  deriving DecidableEq

/- HMAC-SHA256 of a text under a key, the parser of URLs, and what JavaScript makes of a value that is no string as a URL
and of one that is no number beside a number. What a URL object prints parses as it. -/
structure Platform where
  hmac : Utf16 → Utf16 → Bytes
  parseUrl : Utf16 → Option Url
  urlOf : JsonValue → Option Url
  exceeds : JsonValue → Rat → Except Thrown Bool
  digest : ∀ key text, hmac key text ≠ []
  reparsed : ∀ {text url}, parseUrl text = some url → parseUrl url.href = some url

def lowerCase (text : Utf16) : Utf16 :=
  text.map fun c => if 0x41 ≤ c.toNat ∧ c.toNat ≤ 0x5A then UInt16.ofNat (c.toNat + 0x20) else c

def isHostInProviderBaseDomain (baseDomain host : Utf16) : Bool :=
  let host := lowerCase host
  let host := if host.getLast? = some 0x2E then host.dropLast else host
  let baseDomain := lowerCase baseDomain
  host = baseDomain || (0x2E :: baseDomain).isSuffixOf host

def ttlInteraction : Int := 3600

def expiry (now : Int) : Int := now / 1000 + ttlInteraction

def stateData (url : Url) (now : Int) (nonce : Utf16) : List (Utf16 × JsonValue) :=
  [(units "u",.string url.href),(units "e",.number (Number.nearest (expiry now))),(units "n",.string nonce)]

def statePayload (url : Url) (now : Int) (nonce : Utf16) : Utf16 :=
  base64Url (utf8 (stringify (.object (stateData url now nonce))))

def timingSafeEqual (a b : Bytes) : Except Thrown Bool :=
  if a.length = b.length then .ok (a = b) else .error .rangeError

def field? (data : JsonValue) (key : String) : Option JsonValue := match data with
  | .object fields => fields.lookup (units key)
  | _ => none

section Functions
variable (platform : Platform)

def sign (payload key : Utf16) : Utf16 := base64Url (platform.hmac key payload)

def signReturnState (keys : List Utf16) (url : Url) (now : Int) (nonce : Utf16) : Option Utf16 :=
  let payload := statePayload url now nonce
  keys.head?.map fun key => payload ++ 0x2E :: sign platform payload key

def signedBy (payload : Utf16) (given : Bytes) (key : Utf16) : Except Thrown Bool :=
  let expected := utf8 (sign platform payload key)
  if expected.length = given.length then timingSafeEqual expected given else .ok false

def after (value : Option JsonValue) (now : Rat) : Except Thrown Bool := match value with
  | none => .ok false
  | some (.number (.finite value)) => .ok (now < value)
  | some (.number (.infinite negative)) => .ok !negative
  | some value => platform.exceeds value now

def newUrl : Option JsonValue → Option Url
  | none => none
  | some (.string text) => platform.parseUrl text
  | some value => platform.urlOf value

/- None for a state that is no string, and for the result `undefined`. -/
def verifyReturnState (baseDomain : Utf16) (keys : List Utf16) (state : Option Utf16) (now : Int) :
    Except Thrown (Option Utf16) := match state with
  | none => .ok none
  | some state => do
      let pieces := state.splitOn 0x2E
      let payload := pieces.head?.getD []
      let signature := pieces[1]?.getD []
      if payload = [] ∨ signature = [] then return none
      let signedByCurrentKey ← keys.anyM (signedBy platform payload (utf8 signature))
      if !signedByCurrentKey then return none
      match parse (utf8Text (fromBase64 payload)) with
      | none => return none
      | some data =>
          let fresh ← after platform (field? data "e") ((now : Rat) / 1000)
          if !fresh then return none
          match newUrl platform (field? data "u") with
          | none => return none
          | some url => return if isHostInProviderBaseDomain baseDomain url.hostname then some url.href else none

structure Call where
  keys : List Utf16
  url : Url
  now : Int
  nonce : Utf16
  parsed : ∃ text, platform.parseUrl text = some url
  timely : now.natAbs ≤ 8640000000000000

end Functions

namespace Call
variable {platform : Platform} (call : Call platform)

def payload : Utf16 := statePayload call.url call.now call.nonce

def state? : Option Utf16 := signReturnState platform call.keys call.url call.now call.nonce

def Valid (baseDomain : Utf16) (keys : List Utf16) (now : Int) : Prop :=
  (∃ key ∈ keys, call.keys.head? = some key) ∧ now < 1000 * expiry call.now ∧
    isHostInProviderBaseDomain baseDomain call.url.hostname = true

end Call

section Claims
variable {platform : Platform} (issued : Call platform → Prop) (baseDomain : Utf16) (keys : List Utf16) (state : Utf16)
variable (now : Int)

/- HMAC is ideal: nobody has the tag of a payload under a current key but from a call that signed it. -/
def Unforged : Prop := ∀ payload signature rest, state.splitOn 0x2E = payload :: signature :: rest →
  ∀ key ∈ keys, signature = sign platform payload key →
    ∃ call, issued call ∧ call.keys.head? = some key ∧ call.payload = payload

def Genuine (href : Utf16) : Prop := ∃ call : Call platform, issued call ∧ call.Valid baseDomain keys now ∧
  call.state? = some state ∧ call.url.href = href

def Exact : Prop := ∃ verdict, verifyReturnState platform baseDomain keys (some state) now = .ok verdict ∧
  ∀ href, verdict = some href ↔ Genuine issued baseDomain keys state now href

def Continued : Prop := ∃ call : Call platform, issued call ∧ call.Valid baseDomain keys now ∧
  ∃ genuine rest, call.state? = some genuine ∧ state = genuine ++ 0x2E :: rest

end Claims

section Verifying
variable {platform : Platform} {issued : Call platform → Prop} {baseDomain : Utf16} {keys : List Utf16} {now : Int}

theorem letterUndotted (bytes : Bytes) : (0x2E : UInt16) ∉ base64Url bytes := by
  intro inside
  obtain ⟨sextet,small,same⟩ := urlLetter inside
  have all : ∀ sextet < 64, letter true sextet ≠ 0x2E := by decide
  exact all sextet small same

theorem letterAscii (bytes : Bytes) : Ascii (base64Url bytes) := by
  intro c inside
  obtain ⟨sextet,small,rfl⟩ := urlLetter inside
  have all : ∀ sextet < 64, (letter true sextet).toNat < 0x80 := by decide
  exact all sextet small

theorem base64UrlSome {bytes : Bytes} (some : bytes ≠ []) : base64Url bytes ≠ [] := by
  intro none
  apply some
  rw [← base64UrlRead bytes,none]
  rfl

theorem sameSignature {payload key signature : Utf16} :
    utf8 (sign platform payload key) = utf8 signature ↔ signature = sign platform payload key := by
  constructor
  · intro same
    have ascii := letterAscii (platform.hmac key payload)
    have read : toWellFormed signature = sign platform payload key := by
      rw [← utf8Read,← same,utf8Read]
      exact asciiWellFormed ascii
    rw [← read]
    refine (unreplaced fun inside => ?_).symm
    rw [read] at inside
    exact absurd (ascii _ inside) (by decide)
  · intro same
    rw [same]

theorem signedByOk (payload signature key : Utf16) :
    signedBy platform payload (utf8 signature) key = .ok (decide (signature = sign platform payload key)) := by
  simp only [signedBy,timingSafeEqual]
  split
  · simp only [sameSignature]
  · rename_i lengths
    have other : signature ≠ sign platform payload key := fun same => lengths (by rw [same])
    simp only [other,decide_false]

theorem signedByAny (payload signature : Utf16) (keys : List Utf16) :
    keys.anyM (signedBy platform payload (utf8 signature)) =
      .ok (keys.any fun key => decide (signature = sign platform payload key)) := by
  induction keys with
  | nil => rfl
  | cons key keys ih =>
      rw [List.anyM,signedByOk,List.any_cons]
      cases decide (signature = sign platform payload key) with
      | true => rfl
      | false => exact ih

section Calls
variable {call : Call platform} {payload signature : Utf16} {rest : List Utf16} {state : Utf16}

theorem expiryWhole (call : Call platform) : (expiry call.now).natAbs < 2 ^ 53 := by
  have timely := call.timely
  unfold expiry ttlInteraction
  omega

theorem payloadRead (call : Call platform) :
    parse (utf8Text (fromBase64 call.payload)) = some (.object (stateData call.url call.now call.nonce)) := by
  rw [Call.payload,statePayload,base64UrlRead,utf8Read,stringifyWellFormed]
  refine objectRead (List.cons_ne_nil _ _) ?_ (show [units "u",units "e",units "n"].Nodup by decide) ?_
  · have plain : ∀ key ∈ [units "u",units "e",units "n"], arrayIndex? key = none := by decide
    exact fun field inside => plain field.1 (List.mem_map_of_mem inside)
  · simp only [stateData,List.mem_cons,List.not_mem_nil,or_false]
    rintro field (rfl | rfl | rfl)
    · exact stringReads _
    · rw [nearestWhole (expiryWhole call)]
      exact wholeReads (expiryWhole call)
    · exact stringReads _

theorem payloadSome (call : Call platform) : call.payload ≠ [] := by
  intro empty
  have read := payloadRead call
  rw [empty] at read
  cases (show none = some _ from read)

theorem signSome (payload key : Utf16) : sign platform payload key ≠ [] := base64UrlSome (platform.digest key payload)

theorem verdictOf (baseDomain : Utf16) (now : Int) (pieces : state.splitOn 0x2E = call.payload :: signature :: rest)
    (signed : ∃ key ∈ keys, signature = sign platform call.payload key) :
    verifyReturnState platform baseDomain keys (some state) now =
      .ok (if now < 1000 * expiry call.now ∧ isHostInProviderBaseDomain baseDomain call.url.hostname = true
        then some call.url.href else none) := by
  have any : (keys.any fun key => decide (signature = sign platform call.payload key)) = true := by
    simpa using signed
  obtain ⟨key,_,same⟩ := signed
  have given : ¬ (call.payload = [] ∨ signature = []) := by
    rintro (empty | empty)
    · exact payloadSome call empty
    · exact signSome call.payload key (same ▸ empty)
  have e : field? (.object (stateData call.url call.now call.nonce)) "e" = some (.number (.finite (expiry call.now))) := by
    rw [stateData,nearestWhole (expiryWhole call)]
    rfl
  have u : field? (.object (stateData call.url call.now call.nonce)) "u" = some (.string call.url.href) := rfl
  have parsed : platform.parseUrl call.url.href = some call.url := by
    obtain ⟨text,found⟩ := call.parsed
    exact platform.reparsed found
  have compared : ((now : Rat) / 1000 < (expiry call.now : Rat)) ↔ now < 1000 * expiry call.now := by
    rw [div_lt_iff₀ (by norm_num),mul_comm]
    exact_mod_cast Iff.rfl
  simp only [verifyReturnState,pieces,List.head?_cons,Option.getD_some,List.getElem?_cons_succ,List.getElem?_cons_zero,
    if_neg given,signedByAny,any,payloadRead,e,u,after,newUrl,parsed,compared]
  by_cases fresh : now < 1000 * expiry call.now
  · simp only [fresh,decide_true,true_and]
    rfl
  · simp only [fresh,decide_false,false_and,if_false]
    rfl

theorem unsignedRejected (baseDomain : Utf16) (now : Int) (unsigned : ∀ payload signature rest,
    state.splitOn 0x2E = payload :: signature :: rest → ∀ key ∈ keys, signature ≠ sign platform payload key) :
    verifyReturnState platform baseDomain keys (some state) now = .ok none := by
  simp only [verifyReturnState]
  split
  · rfl
  · rename_i given
    have any : (keys.any fun key => decide ((state.splitOn 0x2E)[1]?.getD [] =
        sign platform ((state.splitOn 0x2E).head?.getD []) key)) = false := by
      rw [List.any_eq_false]
      intro key inside
      rw [decide_eq_true_eq]
      cases shape : state.splitOn 0x2E with
      | nil => exact absurd shape (List.splitOn_ne_nil _ _)
      | cons payload pieces =>
          cases pieces with
          | nil =>
              rw [shape] at given
              exact absurd (.inr rfl) given
          | cons signature rest => exact unsigned payload signature rest shape key inside
    rw [signedByAny,any]
    rfl

theorem callPieces {key genuine : Utf16} (keyed : call.keys.head? = some key) (signed : call.state? = some genuine) :
    genuine.splitOn 0x2E = [call.payload,sign platform call.payload key] ∧
    ∀ more, (genuine ++ 0x2E :: more).splitOn 0x2E =
      call.payload :: sign platform call.payload key :: more.splitOn 0x2E := by
  simp only [Call.state?,signReturnState,keyed,Option.map_some,Option.some.injEq] at signed
  subst signed
  have first : (0x2E : UInt16) ∉ statePayload call.url call.now call.nonce := letterUndotted _
  have second : (0x2E : UInt16) ∉ sign platform (statePayload call.url call.now call.nonce) key := letterUndotted _
  constructor
  · rw [List.splitOn_append_cons_self,List.splitOn_eq_singleton first,List.splitOn_eq_singleton second]
    rfl
  · intro more
    rw [List.append_assoc,List.cons_append,List.splitOn_append_cons_self,List.splitOn_append_cons_self,
      List.splitOn_eq_singleton first,List.splitOn_eq_singleton second]
    rfl

theorem piecesState {key : Utf16} (keyed : call.keys.head? = some key)
    (pieces : state.splitOn 0x2E = call.payload :: sign platform call.payload key :: rest) :
    (rest = [] ∧ call.state? = some state) ∨
      ∃ genuine more, rest ≠ [] ∧ call.state? = some genuine ∧ state = genuine ++ 0x2E :: more := by
  have signed : call.state? = some (call.payload ++ 0x2E :: sign platform call.payload key) := by
    simp only [Call.state?,signReturnState,keyed,Option.map_some]
    rfl
  have joined : [(0x2E : UInt16)].intercalate (state.splitOn 0x2E) = state := List.intercalate_splitOn _
  rw [pieces] at joined
  cases rest with
  | nil => exact .inl ⟨rfl,by rw [signed,← joined]; simp [List.intercalate]⟩
  | cons piece rest =>
      refine .inr ⟨_,[0x2E].intercalate (piece :: rest),List.cons_ne_nil _ _,signed,?_⟩
      rw [← joined]
      simp [List.intercalate]

theorem validVerdict {genuine : Utf16} (valid : call.Valid baseDomain keys now) (signed : call.state? = some genuine)
    (starts : state = genuine ∨ ∃ more, state = genuine ++ 0x2E :: more) :
    verifyReturnState platform baseDomain keys (some state) now = .ok (some call.url.href) := by
  obtain ⟨⟨key,inside,keyed⟩,fresh,host⟩ := valid
  obtain ⟨alone,followed⟩ := callPieces keyed signed
  have pieces : ∃ rest, state.splitOn 0x2E = call.payload :: sign platform call.payload key :: rest := by
    rcases starts with rfl | ⟨more,rfl⟩
    · exact ⟨_,alone⟩
    · exact ⟨_,followed more⟩
  obtain ⟨rest,pieces⟩ := pieces
  rw [verdictOf baseDomain now pieces ⟨key,inside,rfl⟩,if_pos ⟨fresh,host⟩]

theorem genuineVerdict {href : Utf16} (genuine : Genuine issued baseDomain keys state now href) :
    verifyReturnState platform baseDomain keys (some state) now = .ok (some href) := by
  obtain ⟨call,_,valid,signed,rfl⟩ := genuine
  exact validVerdict valid signed (.inl rfl)

theorem continuedVerdict (continued : Continued issued baseDomain keys state now) :
    ∃ href, verifyReturnState platform baseDomain keys (some state) now = .ok (some href) := by
  obtain ⟨call,_,valid,genuine,more,signed,same⟩ := continued
  exact ⟨_,validVerdict valid signed (.inr ⟨more,same⟩)⟩

theorem genuinePieces {href : Utf16} (genuine : Genuine issued baseDomain keys state now href) :
    ∃ payload signature, state.splitOn 0x2E = [payload,signature] := by
  obtain ⟨call,_,⟨⟨key,_,keyed⟩,_,_⟩,signed,_⟩ := genuine
  exact ⟨_,_,(callPieces keyed signed).1⟩

theorem continuedPieces (continued : Continued issued baseDomain keys state now) :
    ∃ payload signature piece rest, state.splitOn 0x2E = payload :: signature :: piece :: rest := by
  obtain ⟨call,_,⟨⟨key,_,keyed⟩,_,_⟩,genuine,more,signed,rfl⟩ := continued
  obtain ⟨piece,rest,shape⟩ := List.exists_cons_of_ne_nil (List.splitOn_ne_nil 0x2E more)
  exact ⟨_,_,piece,rest,by rw [(callPieces keyed signed).2 more,shape]⟩

end Calls
end Verifying

/- Exactly what a valid call signed is accepted, but where the state of one goes on with another dot. -/
theorem returnStates {platform : Platform} {issued : Call platform → Prop} {baseDomain : Utf16} {keys : List Utf16}
    {state : Utf16} {now : Int} (unforged : Unforged issued keys state) :
    Exact issued baseDomain keys state now ↔ ¬ Continued issued baseDomain keys state now := by
  -- where nothing is accepted both hold
  have rejected (none : verifyReturnState platform baseDomain keys (some state) now = .ok none) :
      Exact issued baseDomain keys state now ↔ ¬ Continued issued baseDomain keys state now := by
    refine iff_of_true ⟨Option.none,none,fun href => iff_of_false (by simp) fun genuine => ?_⟩ fun continued => ?_
    · have accepted := genuineVerdict genuine
      rw [none] at accepted
      cases accepted
    · obtain ⟨href,accepted⟩ := continuedVerdict continued
      rw [none] at accepted
      cases accepted
  by_cases signed : ∃ payload signature rest, state.splitOn 0x2E = payload :: signature :: rest ∧
      ∃ key ∈ keys, signature = sign platform payload key
  · obtain ⟨payload,signature,rest,pieces,key,inside,same⟩ := signed
    obtain ⟨call,made,keyed,payloadSame⟩ := unforged payload signature rest pieces key inside same
    subst payloadSame same
    have verdict := verdictOf baseDomain now pieces ⟨key,inside,rfl⟩
    by_cases valid : now < 1000 * expiry call.now ∧ isHostInProviderBaseDomain baseDomain call.url.hostname = true
    · rw [if_pos valid] at verdict
      have validCall : call.Valid baseDomain keys now := ⟨⟨key,inside,keyed⟩,valid⟩
      rcases piecesState keyed pieces with ⟨whole,stateSame⟩ | ⟨genuine,more,longer,stateSame,goesOn⟩
      · refine iff_of_true ⟨_,verdict,fun href => ⟨fun accepted => ?_,fun genuine => ?_⟩⟩ fun continued => ?_
        · exact ⟨call,made,validCall,stateSame,Option.some.inj accepted⟩
        · have accepted := genuineVerdict genuine
          rw [verdict] at accepted
          exact Except.ok.inj accepted
        · obtain ⟨_,_,piece,rest',shape⟩ := continuedPieces continued
          rw [pieces,whole] at shape
          cases shape
      · refine iff_of_false ?_ (not_not_intro ⟨call,made,validCall,genuine,more,stateSame,goesOn⟩)
        rintro ⟨verdict',found,exactly⟩
        rw [verdict] at found
        cases found
        obtain ⟨_,_,shape⟩ := genuinePieces ((exactly call.url.href).mp rfl)
        rw [pieces] at shape
        exact longer (List.cons.inj (List.cons.inj shape).2).2
    · rw [if_neg valid] at verdict
      exact rejected verdict
  · exact rejected (unsignedRejected baseDomain now fun payload signature rest pieces key inside same =>
      signed ⟨payload,signature,rest,pieces,key,inside,same⟩)

def inbox : Url := ⟨units "https://app.example.com/inbox",units "app.example.com"⟩

def cookieKey : Utf16 := units "first-cookie-key"

def inboxPayload : Utf16 := statePayload inbox 1700000000000 (units "0b0f4a6e-6f0a-4f5e-9a39-5d2f0f3f2c11")

def inboxDigest : Bytes := [119,240,45,48,100,211,82,28,69,56,137,54,49,42,39,194,
  204,142,202,103,221,143,189,109,222,189,165,204,4,17,213,177]

def inboxHmac (key text : Utf16) : Bytes :=
  if key = cookieKey ∧ text = inboxPayload then inboxDigest else List.replicate 32 0

def inboxPlatform : Platform where
  hmac := inboxHmac
  parseUrl text := if text = inbox.href then some inbox else none
  urlOf _ := none
  exceeds _ _ := .ok false
  digest key text := by
    unfold inboxHmac
    split <;> decide
  reparsed := by
    intro text url found
    split at found
    · cases found
      exact if_pos rfl
    · cases found

def inboxCall : Call inboxPlatform where
  keys := [cookieKey]
  url := inbox
  now := 1700000000000
  nonce := units "0b0f4a6e-6f0a-4f5e-9a39-5d2f0f3f2c11"
  parsed := by
    refine ⟨inbox.href,?_⟩
    show (if inbox.href = inbox.href then some inbox else none) = some inbox
    exact if_pos rfl
  timely := by decide

def inboxState : Utf16 := inboxPayload ++ 0x2E :: base64Url inboxDigest

theorem inboxSigned : inboxCall.state? = some inboxState := by
  have tag : sign inboxPlatform inboxPayload cookieKey = base64Url inboxDigest := congrArg base64Url (if_pos ⟨rfl,rfl⟩)
  show some (inboxPayload ++ 0x2E :: sign inboxPlatform inboxPayload cookieKey) = _
  rw [tag]
  rfl

def rotatedKeys : List Utf16 := [units "second-cookie-key",cookieKey]

theorem inboxValid : inboxCall.Valid (units "example.com") rotatedKeys 1700000120000 :=
  ⟨⟨cookieKey,by simp [rotatedKeys],rfl⟩,by decide,by decide⟩

theorem inboxUnforged {state : Utf16} (starts : state = inboxState ∨ ∃ more, state = inboxState ++ 0x2E :: more) :
    Unforged (fun call => call = inboxCall) rotatedKeys state := by
  intro payload signature rest pieces key inside same
  obtain ⟨alone,followed⟩ := callPieces (show inboxCall.keys.head? = some cookieKey from rfl) inboxSigned
  have shape : inboxCall.payload = payload ∧ sign inboxPlatform inboxCall.payload cookieKey = signature := by
    rcases starts with rfl | ⟨more,rfl⟩
    · rw [alone] at pieces
      exact ⟨(List.cons.inj pieces).1,(List.cons.inj (List.cons.inj pieces).2).1⟩
    · rw [followed more] at pieces
      exact ⟨(List.cons.inj pieces).1,(List.cons.inj (List.cons.inj pieces).2).1⟩
  obtain ⟨rfl,rfl⟩ := shape
  refine ⟨inboxCall,rfl,?_,rfl⟩
  simp only [rotatedKeys,List.mem_cons,List.not_mem_nil,or_false] at inside
  rcases inside with rfl | rfl
  · have apart : ¬ (units "second-cookie-key" = cookieKey ∧ inboxCall.payload = inboxPayload) :=
      fun both => absurd both.1 (by decide)
    have digests : inboxHmac cookieKey inboxCall.payload = inboxHmac (units "second-cookie-key") inboxCall.payload :=
      base64UrlInjective same
    have mine : inboxHmac cookieKey inboxCall.payload = inboxDigest := if_pos ⟨rfl,rfl⟩
    rw [mine,inboxHmac,if_neg apart] at digests
    exact absurd digests (by decide)
  · rfl

/- A state is accepted with a dot and anything after it. -/
theorem appendedAccepted : ¬ ∀ (platform : Platform) (issued : Call platform → Prop) (baseDomain : Utf16) (keys : List Utf16)
    (state : Utf16) (now : Int), Unforged issued keys state → Exact issued baseDomain keys state now := by
  intro exactly
  obtain ⟨verdict,found,accepted⟩ := exactly inboxPlatform (fun call => call = inboxCall) (units "example.com") rotatedKeys
    (inboxState ++ 0x2E :: units "x") 1700000120000 (inboxUnforged (.inr ⟨units "x",rfl⟩))
  rw [validVerdict inboxValid inboxSigned (.inr ⟨units "x",rfl⟩)] at found
  cases found
  obtain ⟨_,_,pieces⟩ := genuinePieces ((accepted inboxCall.url.href).mp rfl)
  rw [(callPieces (show inboxCall.keys.head? = some cookieKey from rfl) inboxSigned).2] at pieces
  exact List.splitOn_ne_nil _ _ (List.cons.inj (List.cons.inj pieces).2).2

theorem inboxAccepted : Exact (fun call => call = inboxCall) (units "example.com") rotatedKeys inboxState 1700000120000 := by
  refine (returnStates (inboxUnforged (.inl rfl))).mpr fun continued => ?_
  obtain ⟨_,_,piece,rest,pieces⟩ := continuedPieces continued
  rw [(callPieces (show inboxCall.keys.head? = some cookieKey from rfl) inboxSigned).1] at pieces
  cases pieces

end ReturnState
end Passmower
