import Passmower.Laws

/-! Where the contents of a submission come from. Whatever an interaction stores or carries
over was earned in its own chain: a verified flag by a presented link, a token by GitHub, an
upstream identity by a validated response, a username request by a completed login. -/
namespace Passmower
open JavaScript Resumption Ledger

def Happening.isProof : Happening → Bool
  | .presented _ | .githubToken _ | .granted _ _ => true
  | _ => false

def Authenticated (log : List Event) (chain : Nat) : Prop :=
  ∃ proof ∈ log, proof.chain = chain ∧ proof.what.isProof = true

def Requested (log : List Event) (chain : Nat) : Prop :=
  ∃ uid proof, Precedes log proof ⟨chain,uid,.usernameRequested⟩ ∧ proof.chain = chain ∧
    proof.what.isProof = true

def Extracted (env : Env) (log : List Event) (chain : Nat) (key : String) (identity : OidcIdentity) :
    Prop :=
  ∃ config profile observedAt, config.key = key ∧ Asserted env log chain config profile ∧
    identity = extractIdentity config profile observedAt

structure Earned (w : World) (chain : Nat) (s : Submission) : Prop where
  emailVerified : s.emailVerified = true → ∃ token, w.happened chain (.presented token)
  oauth : s.oauth.isSome → ∃ token, w.happened chain (.githubToken token)
  oidc : ∀ key identity, s.oidc = some (key,identity) → Extracted w.env w.journal chain key identity
  requireCustomUsername : s.requireCustomUsername = true → Requested w.journal chain

def Backed (log : List Event) (entry : Event) : Prop := match entry.what with
  | .completeLogin _ | .githubLogin _ _ | .identify _ _ | .usernameRequested =>
      Authenticated log entry.chain
  | _ => True

structure Provenance (w : World) : Prop where
  genuine : Everywhere (Holding Earned) w
  backed : Justified Backed w.journal

section Monotone

theorem authenticatedHappened {w : World} {chain what} (proof : what.isProof = true)
    (happened : w.happened chain what) : Authenticated w.journal chain := by
  obtain ⟨uid,inside⟩ := happened
  exact ⟨_,inside,rfl,proof⟩

theorem onwardRequested {w w' : World} {chain : Nat} (onward : Onward w w')
    (requested : Requested w.journal chain) : Requested w'.journal chain := by
  obtain ⟨uid,proof,precedes,same,proves⟩ := requested
  exact ⟨uid,proof,precedesLater onward.journal precedes,same,proves⟩

theorem onwardAsserted {w w' : World} {chain config profile} (onward : Onward w w')
    (asserted : Asserted w.env w.journal chain config profile) :
    Asserted w'.env w'.journal chain config profile := by
  obtain ⟨providers,enrollUsers,env⟩ := onward.env
  exact assertedAppend (by rw [env]; rfl) onward.journal asserted

theorem onwardExtracted {w w' : World} {chain key identity} (onward : Onward w w')
    (extracted : Extracted w.env w.journal chain key identity) :
    Extracted w'.env w'.journal chain key identity := by
  obtain ⟨config,profile,observedAt,same,asserted,rfl⟩ := extracted
  exact ⟨config,profile,observedAt,same,onwardAsserted onward asserted,rfl⟩

theorem extractedAuthenticated {w : World} {chain key identity}
    (extracted : Extracted w.env w.journal chain key identity) : Authenticated w.journal chain := by
  obtain ⟨config,profile,observedAt,_,⟨_,_,_,⟨uid,granted⟩,_⟩,_⟩ := extracted
  exact ⟨_,granted,rfl,rfl⟩

theorem onwardEarned {w w' : World} {chain s} (onward : Onward w w') (earned : Earned w chain s) :
    Earned w' chain s where
  emailVerified flag := (earned.emailVerified flag).imp fun _ => onwardHappened onward
  oauth held := (earned.oauth held).imp fun _ => onwardHappened onward
  oidc key identity held := onwardExtracted onward (earned.oidc key identity held)
  requireCustomUsername flag := onwardRequested onward (earned.requireCustomUsername flag)

theorem earnedNothing (w : World) (chain : Nat) : Earned w chain {} where
  emailVerified flag := by cases flag
  oauth held := by cases held
  oidc key identity held := by cases held
  requireCustomUsername flag := by cases flag

theorem earnedOver {w : World} {chain extra base} (first : Earned w chain extra)
    (second : Earned w chain base) : Earned w chain (extra.onto base) where
  emailVerified flag := by
    rcases Bool.or_eq_true_iff.mp flag with own | carried
    · exact first.emailVerified own
    · exact second.emailVerified carried
  oauth held := by
    cases own : extra.oauth with
    | some token => exact first.oauth (by rw [own]; rfl)
    | none => exact second.oauth (by simpa [Submission.onto,own] using held)
  oidc key identity held := by
    cases own : extra.oidc with
    | some pair => exact first.oidc key identity (by simpa [Submission.onto,own] using held)
    | none => exact second.oidc key identity (by simpa [Submission.onto,own] using held)
  requireCustomUsername flag := by
    rcases Bool.or_eq_true_iff.mp flag with own | carried
    · exact first.requireCustomUsername own
    · exact second.requireCustomUsername carried

end Monotone

theorem backedMember {w : World} (inv : Provenance w) {chain uid : Nat} {what : Happening}
    (inside : ⟨chain,uid,what⟩ ∈ w.journal) (login : ∀ log, Backed log ⟨chain,uid,what⟩ →
      Authenticated log chain) : Authenticated w.journal chain := by
  obtain ⟨before,later,journal,backed⟩ := justifiedMember inv.backed inside
  obtain ⟨proof,member,same,proves⟩ := login before backed
  exact ⟨proof,by rw [journal]; exact List.mem_append_left _ member,same,proves⟩

theorem attemptAuthenticated {w : World} (inv : Provenance w) {chain email githubEmails identity}
    (attempt : Attempt w chain email githubEmails identity) : Authenticated w.journal chain := by
  cases attempt with
  | magicLink email begun => obtain ⟨uid,inside⟩ := begun; exact backedMember inv inside fun _ => id
  | github user emails begun => obtain ⟨uid,inside⟩ := begun; exact backedMember inv inside fun _ => id
  | oidc key identity begun => obtain ⟨uid,inside⟩ := begun; exact backedMember inv inside fun _ => id

theorem writtenBacked {w : World} (inv : Provenance w) {i : Interaction} {literal merge what}
    (writes : Writes w i literal merge) (marked : literal.mark = some what) (uid : Nat) :
    Backed w.journal ⟨i.chain,uid,what⟩ := by
  rcases markSource marked with ⟨rfl,own,email,githubEmails,preferred,identity,rfl⟩ | ⟨accountId,rfl⟩
  · cases writes with
    | usernameRequest email githubEmails preferredUsername identity attempt enrols =>
        exact attemptAuthenticated inv attempt
  · trivial

theorem loggedBacked {w : World} (inv : Provenance w) {uid : Nat} {i : Interaction} {c : Call}
    {what : Happening} (found : w.interaction uid = some i) (logs : Logs w uid i c what) :
    Backed w.journal ⟨i.chain,uid,what⟩ := by
  obtain ⟨carried,stored⟩ := inv.genuine uid i found
  cases logs with
  | written literal merge what writes marked => exact writtenBacked inv writes marked uid
  | record what records =>
      cases records with
      | completeLogin own result verified =>
          obtain ⟨token,presented⟩ := (stored own result).emailVerified verified
          exact authenticatedHappened rfl presented
      | githubLogin user emails authorized _ =>
          rcases authorized with held | ⟨token,exchanged⟩
          · obtain ⟨token,exchanged⟩ := carried.oauth held
            exact authenticatedHappened rfl exchanged
          · exact authenticatedHappened rfl exchanged
      | identify key identity stash =>
          rcases stash with ⟨provider,held⟩ | ⟨own,result,held⟩
          · exact extractedAuthenticated (carried.oidc provider identity held)
          · exact extractedAuthenticated ((stored own result).oidc key identity held)
      | _ => trivial
  | _ => trivial

theorem earnedWritten {w w' : World} (onward : Onward w w')
    {uid : Nat} {i : Interaction} {literal merge} {base : Submission}
    (writes : Writes w i literal merge) (justified : Justified Backed w'.journal)
    (marked : ∀ what, literal.mark = some what → ⟨i.chain,uid,what⟩ ∈ w'.journal)
    (earned : Earned w' i.chain base) (own : ∀ r, i.result = some r → Earned w' i.chain r) :
    Earned w' i.chain (literal.onto base) := by
  cases writes with
  | oauth token exchanged =>
      exact {earned with oauth := fun _ => ⟨token,onwardHappened onward exchanged⟩}
  | oidc config profile observedAt asserted =>
      refine {earned with oidc := fun key identity held => ?_}
      cases Option.some.inj held
      exact ⟨config,profile,observedAt,rfl,onwardAsserted onward asserted,rfl⟩
  | usernameRequest email githubEmails preferredUsername identity attempt enrols =>
      have requested : Requested w'.journal i.chain := by
        obtain ⟨before,later,journal,proof,member,same,proves⟩ :=
          justifiedMember justified (marked .usernameRequested rfl)
        exact ⟨uid,proof,⟨before,later,journal,member⟩,same,proves⟩
      have result : Earned w' i.chain (i.result.getD {}) := by
        cases held : i.result with
        | none => exact earnedNothing _ _
        | some r => exact own r held
      exact earnedOver result {earned with requireCustomUsername := fun _ => requested}
  | result r merge stored _ => exact earnedOver (own r stored) earned
  | _ => exact {earned with}

theorem provenanceCall {w : World} {c : Call} (choice : Choice) (inv : Provenance w)
    (lawful : Lawful w c) : Provenance (serve choice c w).2 := by
  have onward := laterOnward (serveLater choice c w)
  have justified : Justified Backed (serve choice c w).2.journal :=
    justifiedCall inv.backed lawful fun uid i what found logs => loggedBacked inv found logs
  refine ⟨?_,justified⟩
  apply holdingCall inv.genuine lawful
  · exact earnedNothing _
  · exact fun chain s => onwardEarned onward
  · intro uid i literal merge base found writes marked earned own
    exact earnedWritten onward writes justified marked earned own
  · intro uid i own token verifiedAt matched last earned
    exact {earned with emailVerified := fun _ => ⟨token,uid,onward.journal.subset (List.mem_of_getLast? last)⟩}

theorem provenanceEdit {w : World} {m : Move} (inv : Provenance w) (edit : m.isRequest = false) :
    Provenance (w.step m) := by
  have onward := editOnward edit (w := w)
  refine ⟨?_,by rw [editJournal edit]; exact inv.backed⟩
  exact holdingEdit inv.genuine edit (earnedNothing _) fun chain s => onwardEarned onward

theorem provenanceLaw (ok : World → Call → Prop) : Law ok Provenance :=
  ⟨fun choice inv _ lawful => provenanceCall choice inv lawful,provenanceEdit⟩

def opening (env : Env) (users : List OidcUser) : World := {env := env, users := users}

theorem provenanceOpening (env : Env) (users : List OidcUser) : Provenance (opening env users) where
  genuine uid i found := by simp [World.interaction,opening] at found
  backed := justifiedNil _

end Passmower
