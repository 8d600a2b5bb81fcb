import Passmower.Provenance

/-! The binding of an upstream identity to its provider. The last phase of the upstream login
takes the key from the request and the identity from the carried submission, so a stashed
identity can be looked up and stored under another provider's key. Where the two agree at
every entry of that phase, an identity only counts for the provider that asserted it. -/
namespace Passmower
open JavaScript Resumption Ledger

def Identified (env : Env) (log : List Event) (entry : Event) : Prop := match entry.what with
  | .identify key identity => Extracted env log entry.chain key identity
  | _ => True

def providerKept (w : World) : Call → Prop
  | .record uid (.identify key _) =>
      ∀ i ∈ w.interaction uid, ∀ stash ∈ i.carried.oidc, stash.1 = key
  | _ => True

instance (w c) : Decidable (providerKept w c) := by unfold providerKept; split <;> infer_instance

theorem identifiedReconfigured {env : Env} {providers : List ProviderConfig} {enrollUsers : Bool}
    {log : List Event} {entry : Event} (identified : Identified env log entry) :
    Identified {env with providers := providers, enrollUsers := enrollUsers} log entry := by
  unfold Identified at identified ⊢
  split
  · rename_i key identity what
    rw [what] at identified
    obtain ⟨config,profile,observedAt,same,⟨claims,userinfo,rfl,responses⟩,rfl⟩ := identified
    exact ⟨config,_,observedAt,same,⟨claims,userinfo,rfl,responses⟩,rfl⟩
  · trivial

theorem identifiedLogged {w : World} (inv : Provenance w) {uid : Nat} {i : Interaction} {c : Call}
    {what : Happening} (kept : providerKept w c) (found : w.interaction uid = some i)
    (logs : Logs w uid i c what) : Identified w.env w.journal ⟨i.chain,uid,what⟩ := by
  obtain ⟨carried,stored⟩ := inv.genuine uid i found
  cases logs with
  | written literal merge what writes marked =>
      rcases markSource marked with ⟨rfl,_⟩ | ⟨accountId,rfl⟩ <;> trivial
  | record what records =>
      cases records with
      | identify key identity stash =>
          rcases stash with ⟨provider,held⟩ | ⟨own,result,held⟩
          · have same : provider = key := kept i found _ held
            exact same ▸ carried.oidc provider identity held
          · exact (stored own result).oidc key identity held
      | _ => trivial
  | _ => trivial

theorem identifiedLaw : Law providerKept
    (fun w => Provenance w ∧ Justified (Identified w.env) w.journal) where
  call choice inv kept lawful := by
    refine ⟨provenanceCall choice inv.1 lawful,?_⟩
    rw [(serveLater choice _ _).env]
    exact justifiedCall inv.2 lawful fun uid i what found logs => identifiedLogged inv.1 kept found logs
  edit {w m} inv edit := by
    refine ⟨provenanceEdit inv.1 edit,?_⟩
    obtain ⟨providers,enrollUsers,env⟩ := (editOnward edit (w := w)).env
    rw [editJournal edit,env]
    exact fun before entry later same => identifiedReconfigured (inv.2 before entry later same)

/- In every run that keeps a stashed identity under its own provider, the identity a login looks
up and stores under a provider's key was read from a validated response of that provider. -/
theorem upstreamBinding (env : Env) (users : List OidcUser) (moves : List Move)
    (kept : RunDisciplined providerKept moves (opening env users)) (before later : List Event)
    (chain uid : Nat) (key : String) (identity : OidcIdentity)
    (persisted : (run moves (opening env users)).journal =
      before ++ ⟨chain,uid,.identify key identity⟩ :: later) :
    Extracted (run moves (opening env users)).env before chain key identity := by
  have start : Provenance (opening env users) ∧
      Justified (Identified (opening env users).env) (opening env users).journal :=
    ⟨provenanceOpening env users,justifiedNil _⟩
  exact (runLaw identifiedLaw start kept).2 before _ later persisted

def providerOne : ProviderConfig := {key := "one", displayName := "One", emailVerification := .none}

def twoProviders : Env :=
  {usernameSource := .prompt
   providers := [providerOne,{key := "two", displayName := "Two", emailVerification := .none}]}

def upstreamClaims : Object := [("sub",.string "s"),("email",.string "a@x.org")]

def upstreamLogin : List Move :=
  [.start .login,.request (.federated 0 "one" none) (List.replicate 5 {text := "r"}),
   .request (.federated 0 "one" (some {state := some "0|r"}))
     (List.replicate 20 {text := "1", claims := upstreamClaims})]

def upstreamResponses : List Event :=
  [⟨0,0,.granted providerOne upstreamClaims⟩,⟨0,0,.userInfo providerOne upstreamClaims⟩]

def upstreamIdentity : OidcIdentity :=
  {sub := "s", primaryEmail := some "a@x.org",
   emails := [{email := some "a@x.org", primary := some true, observedAt := some "1"}]}

theorem upstreamLoginBound : Extracted (run upstreamLogin (opening twoProviders [])).env
    upstreamResponses 0 "one" upstreamIdentity :=
  upstreamBinding twoProviders [] upstreamLogin (by decide) _ [⟨0,0,.usernameRequested⟩] 0 0 _ _ rfl

/- Resumed for a username, the browser posts the other provider's key: the stashed identity of
`one` is looked up, and would be stored, under `two`, which answered nothing. -/
theorem identityRekeyed : ¬ ∀ (env : Env) (users : List OidcUser) (moves : List Move)
    (before later : List Event) (chain uid : Nat) (key : String) (identity : OidcIdentity),
    (run moves (opening env users)).journal = before ++ ⟨chain,uid,.identify key identity⟩ :: later →
    Extracted (run moves (opening env users)).env before chain key identity := by
  intro claim
  have journal : (run (upstreamLogin ++ [.resume 0 .login,.request (.federated 1 "two" none) []])
      (opening twoProviders [])).journal =
      (upstreamResponses ++ [⟨0,0,.identify "one" upstreamIdentity⟩,⟨0,0,.usernameRequested⟩]) ++
      ⟨0,1,.identify "two" upstreamIdentity⟩ :: [⟨0,1,.usernameRequested⟩] := rfl
  obtain ⟨config,_,_,key,⟨claims,_,_,⟨uid,granted⟩,_⟩,_⟩ := claim _ _ _ _ _ _ _ _ _ journal
  have one : config = providerOne := by
    simp [upstreamResponses] at granted
    exact granted.2.1
  subst one
  simp [providerOne] at key

end Passmower
