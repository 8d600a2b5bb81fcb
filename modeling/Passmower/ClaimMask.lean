import Passmower.ClaimShadowing

/-! Two runs of the provider that differ in one client's mappings and requests: when the claims delivered to
every other client are the same, the names mapped by one client being declared for all. -/
namespace Passmower
open JavaScript

structure ClaimsRequest where
  client : String
  account : OidcUser
  scope : String
  use : Option ClaimsUse
  env : Env := {}
  webhook : Option Json := none
  applications : Json := .array []

abbrev ClaimsClients := String → ClaimsClient

def claimsConfiguration : ClaimsConfiguration where
  declared scope := match scope with
    | "openid" => ["sub","username"]
    | "profile" => ["emails","name","nickname","profile"]
    | "email" => ["email","email_verified"]
    | "groups" | "allowed_groups" => ["groups"]
    | "applications" => ["applications"]
    | "namespaces" => [namespacesClaim]
    | _ => []
  supported := ["acr","auth_time","iss","sid","sub","username","emails","name","nickname","profile","email",
    "email_verified","groups","applications",namespacesClaim]

def ClaimsConfiguration.declares (configuration : ClaimsConfiguration) (scope name : String) : Bool :=
  ("openid" :: scopeTokens scope).any fun granted => (configuration.declared granted).contains name

section Runs
variable (clients : ClaimsClients) (boot : ClaimsConfiguration)

def ClaimsRequest.context (request : ClaimsRequest) : ClaimsContext where
  env := request.env
  client := clients request.client
  webhook := request.webhook
  applications := request.applications

def configured (history : List ClaimsRequest) : ClaimsConfiguration :=
  history.foldl (fun configuration request => configuration.registerMappedClaims (clients request.client).mappings) boot

def ClaimsRequest.delivered (request : ClaimsRequest) (configuration : ClaimsConfiguration) : Option Object :=
  match request.use with
  | some use => some ((request.account.claims (request.context clients) use request.scope).filter fun claim =>
      configuration.declares request.scope claim.1)
  | none => extraTokenClaims (request.context clients) {scope := some request.scope} (some request.account)

def servedOthers (client : String) : List ClaimsRequest → List ClaimsRequest → List (ClaimsRequest × List ClaimsRequest)
  | _, [] => []
  | history, request :: rest =>
      if request.client = client then servedOthers client (history ++ [request]) rest
      else (request,history ++ [request]) :: servedOthers client (history ++ [request]) rest

def deliveries (client : String) (requests : List ClaimsRequest) : List (Option Object) :=
  (servedOthers client [] requests).map fun entry => entry.1.delivered clients (configured clients boot entry.2)

def Unmasked (history : List ClaimsRequest) (name : String) : Prop :=
  name ∉ boot.supported ∧ name ∉ reservedClaims ∧
    ∃ request ∈ history, name ∈ (clients request.client).mappings.entries.map Prod.fst

end Runs

section Configured
variable {clients clients' : ClaimsClients} {boot : ClaimsConfiguration} {history history' : List ClaimsRequest} {name : String}

theorem registeredNames (configuration : ClaimsConfiguration) (mappings : ClaimMappings) :
    (name ∈ (configuration.registerMappedClaims mappings).supported ↔ name ∈ configuration.supported ∨
      (name ∈ mappings.entries.map Prod.fst ∧ name ∉ reservedClaims)) ∧
    (name ∈ (configuration.registerMappedClaims mappings).declared "openid" ↔ name ∈ configuration.declared "openid" ∨
      (name ∈ mappings.entries.map Prod.fst ∧ name ∉ reservedClaims ∧ name ∉ configuration.supported)) := by
  unfold ClaimsConfiguration.registerMappedClaims
  simp only [if_true,List.mem_append,List.mem_filter,decide_eq_true_eq]
  by_cases known : name ∈ configuration.supported <;> simp [known]

theorem unmaskedSnoc (history : List ClaimsRequest) (request : ClaimsRequest) :
    Unmasked clients boot (history ++ [request]) name ↔ Unmasked clients boot history name ∨
      (name ∉ boot.supported ∧ name ∉ reservedClaims ∧ name ∈ (clients request.client).mappings.entries.map Prod.fst) := by
  unfold Unmasked
  constructor
  · intro unmasked
    obtain ⟨unknown,free,source,inside,named⟩ := unmasked
    rcases List.mem_append.mp inside with old | new
    · exact .inl ⟨unknown,free,source,old,named⟩
    · cases List.mem_singleton.mp new
      exact .inr ⟨unknown,free,named⟩
  · intro either
    rcases either with ⟨unknown,free,source,inside,named⟩ | ⟨unknown,free,named⟩
    · exact ⟨unknown,free,source,List.mem_append_left _ inside,named⟩
    · exact ⟨unknown,free,request,by simp,named⟩

theorem configuredNames (history : List ClaimsRequest) :
    (name ∈ (configured clients boot history).supported ↔ name ∈ boot.supported ∨ Unmasked clients boot history name) ∧
    (name ∈ (configured clients boot history).declared "openid" ↔
      name ∈ boot.declared "openid" ∨ Unmasked clients boot history name) := by
  induction history using List.reverseRecOn with
  | nil => simp [configured,Unmasked]
  | append_singleton history request ih =>
      obtain ⟨known,declared⟩ := ih
      have step : configured clients boot (history ++ [request]) =
          (configured clients boot history).registerMappedClaims (clients request.client).mappings := by
        simp [configured]
      obtain ⟨known',declared'⟩ := @registeredNames name (configured clients boot history)
        (clients request.client).mappings
      rw [step,known',declared',known,declared,unmaskedSnoc]
      by_cases atBoot : name ∈ boot.supported
      · simp [atBoot]
      · grind

theorem configuredOther {scope : String} (other : scope ≠ "openid") (history : List ClaimsRequest) :
    (configured clients boot history).declared scope = boot.declared scope := by
  induction history using List.reverseRecOn with
  | nil => rfl
  | append_singleton history request ih =>
      unfold configured at ih ⊢
      rw [List.foldl_append,List.foldl_cons,List.foldl_nil]
      simp only [ClaimsConfiguration.registerMappedClaims,if_neg other]
      exact ih

theorem declaredNow (scope : String) (history : List ClaimsRequest) :
    (configured clients boot history).declares scope name = true ↔
      boot.declares scope name = true ∨ Unmasked clients boot history name := by
  have openid := (@configuredNames clients boot name history).2
  simp only [ClaimsConfiguration.declares,List.any_eq_true,List.contains_eq_mem,decide_eq_true_eq]
  constructor
  · intro now
    obtain ⟨granted,inside,named⟩ := now
    by_cases same : granted = "openid"
    · subst same
      exact (openid.mp named).imp (fun atBoot => ⟨_,inside,atBoot⟩) id
    · rw [configuredOther same] at named
      exact .inl ⟨granted,inside,named⟩
  · intro either
    rcases either with ⟨granted,inside,named⟩ | unmasked
    · by_cases same : granted = "openid"
      · subst same
        exact ⟨_,inside,openid.mpr (.inl named)⟩
      · exact ⟨granted,inside,by rw [configuredOther same]; exact named⟩
    · exact ⟨"openid",List.mem_cons_self,openid.mpr (.inr unmasked)⟩

end Configured

theorem mapsAgree {α β γ : Type} {f : α → γ} {g : β → γ} {first : List α} {second : List β}
    (length : first.length = second.length) : first.map f = second.map g ↔
      ∀ (i : Nat) (x : α) (y : β), first[i]? = some x → second[i]? = some y → f x = g y := by
  constructor
  · intro same i x y here there
    have image := congrArg (·[i]?) same
    simpa [here,there] using image
  · intro each
    apply List.ext_getElem?
    intro i
    rw [List.getElem?_map,List.getElem?_map]
    cases here : first[i]? with
    | none =>
        have past : second[i]? = none := by
          rw [List.getElem?_eq_none_iff] at here ⊢
          omega
        rw [past]
        rfl
    | some x =>
        cases there : second[i]? with
        | none =>
            rw [List.getElem?_eq_none_iff] at there
            have inside := (List.getElem?_eq_some_iff.mp here).1
            omega
        | some y => exact congrArg some (each i x y here there)

theorem servedRequests (client : String) (history requests : List ClaimsRequest) :
    (servedOthers client history requests).map Prod.fst = requests.filter (·.client ≠ client) := by
  induction requests generalizing history with
  | nil => rfl
  | cons request rest ih =>
      by_cases own : request.client = client
      · simp [servedOthers,own,ih]
      · simp [servedOthers,own,ih]

theorem filtersAgree {α : Type} {p q : α → Bool} {items : List α} :
    items.filter p = items.filter q ↔ ∀ item ∈ items, p item = q item := by
  constructor
  · intro same item inside
    have both : item ∈ items.filter p ↔ item ∈ items.filter q := by rw [same]
    simp only [List.mem_filter,inside,true_and] at both
    exact Bool.eq_iff_iff.mpr both
  · intro each
    exact List.filter_congr each

section TwoRuns
variable (boot : ClaimsConfiguration) (clients clients' : ClaimsClients) (client : String)
  (requests requests' : List ClaimsRequest)

def Noninterfering : Prop := deliveries clients' boot client requests' = deliveries clients boot client requests

def MasksAgree : Prop :=
  ∀ (i : Nat) (request : ClaimsRequest) (history history' : List ClaimsRequest),
    (servedOthers client [] requests)[i]? = some (request,history) →
    (servedOthers client [] requests')[i]? = some (request,history') →
    ∀ use, request.use = some use → ∀ claim ∈ request.account.claims (request.context clients) use request.scope,
      boot.declares request.scope claim.1 = true ∨
        (Unmasked clients boot history claim.1 ↔ Unmasked clients' boot history' claim.1)

end TwoRuns

theorem deliveredAlike {boot : ClaimsConfiguration} {clients clients' : ClaimsClients} {request : ClaimsRequest}
    (context : clients' request.client = clients request.client) (history history' : List ClaimsRequest) :
    request.delivered clients' (configured clients' boot history') =
        request.delivered clients (configured clients boot history) ↔
      ∀ use, request.use = some use → ∀ claim ∈ request.account.claims (request.context clients) use request.scope,
        boot.declares request.scope claim.1 = true ∨
          (Unmasked clients boot history claim.1 ↔ Unmasked clients' boot history' claim.1) := by
  unfold ClaimsRequest.delivered ClaimsRequest.context
  rw [context]
  cases request.use with
  | none => simp
  | some use =>
      simp only [Option.some.injEq,forall_eq']
      rw [filtersAgree]
      refine forall₂_congr fun claim _ => ?_
      rw [Bool.eq_iff_iff,declaredNow,declaredNow]
      by_cases atBoot : boot.declares request.scope claim.1 = true
      · simp [atBoot]
      · simp only [atBoot,Bool.false_eq_true,false_or]
        exact ⟨Iff.symm,Iff.symm⟩

theorem claimMask (boot : ClaimsConfiguration) (clients clients' : ClaimsClients) (client : String)
    (requests requests' : List ClaimsRequest) (others : ∀ id, id ≠ client → clients' id = clients id)
    (same : requests'.filter (·.client ≠ client) = requests.filter (·.client ≠ client)) :
    Noninterfering boot clients clients' client requests requests' ↔
      MasksAgree boot clients clients' client requests requests' := by
  have aligned : (servedOthers client [] requests').map Prod.fst = (servedOthers client [] requests).map Prod.fst := by
    rw [servedRequests,servedRequests,same]
  have length : (servedOthers client [] requests').length = (servedOthers client [] requests).length := by
    simpa using congrArg List.length aligned
  have paired : ∀ (i : Nat) (x y : ClaimsRequest × List ClaimsRequest), (servedOthers client [] requests')[i]? = some x →
      (servedOthers client [] requests)[i]? = some y → x.1 = y.1 := by
    intro i x y there here
    have image := congrArg (fun list : List ClaimsRequest => list[i]?) aligned
    simpa only [List.getElem?_map,here,there,Option.map_some,Option.some.injEq] using image
  have context : ∀ (i : Nat) (x : ClaimsRequest × List ClaimsRequest), (servedOthers client [] requests)[i]? = some x →
      clients' x.1.client = clients x.1.client := by
    intro i x here
    have inside : x.1 ∈ (servedOthers client [] requests).map Prod.fst := List.mem_map.mpr ⟨x,List.mem_of_getElem? here,rfl⟩
    rw [servedRequests,List.mem_filter,decide_eq_true_eq] at inside
    exact others _ inside.2
  unfold Noninterfering deliveries MasksAgree
  rw [mapsAgree length]
  constructor
  · intro each i request history history' here there
    exact (deliveredAlike (context i _ here) history history').mp (each i _ _ there here)
  · intro agree i x y there here
    obtain ⟨request,history⟩ := y
    obtain ⟨_,history'⟩ := x
    cases paired i _ _ there here
    exact (deliveredAlike (context i _ here) history history').mpr (agree i _ history history' here there)

def companyMapping : ClaimMappings where
  claimMappings := some (.object [("company",.object [("default",.string "x")])])
  accepted := by decide +kernel

def mappingClient (id : String) : ClaimsClient :=
  if id = "a" then ⟨"a",[],companyMapping⟩ else {clientId := id}

def employee : OidcUser where
  accountId := "alice"
  status := {profile := {company := some "Acme"}}

def profileRequest (client : String) : ClaimsRequest := ⟨client,employee,"openid profile",some .userinfo,{},none,.array []⟩

/- One request of a client that maps `company` shows another client the account's company. -/
theorem companyUnmasked : ¬ ∀ (clients clients' : ClaimsClients) (client : String) (requests requests' : List ClaimsRequest),
    (∀ id, id ≠ client → clients' id = clients id) →
    requests'.filter (·.client ≠ client) = requests.filter (·.client ≠ client) →
    Noninterfering claimsConfiguration clients clients' client requests requests' := by
  intro always
  have shown := always mappingClient mappingClient "a" [profileRequest "b"] [profileRequest "a",profileRequest "b"]
    (fun _ _ => rfl) rfl
  have names := congrArg (fun list : List (Option Object) => list.map fun claims => claims.map (·.map Prod.fst)) shown
  exact absurd names (by decide +kernel)

theorem companyMasked : Noninterfering claimsConfiguration mappingClient mappingClient "a" [profileRequest "b"]
      [profileRequest "a",profileRequest "b"] ↔
    MasksAgree claimsConfiguration mappingClient mappingClient "a" [profileRequest "b"]
      [profileRequest "a",profileRequest "b"] :=
  claimMask claimsConfiguration mappingClient mappingClient "a" _ _ (fun _ _ => rfl) rfl

end Passmower
