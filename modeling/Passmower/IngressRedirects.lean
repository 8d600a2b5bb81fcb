import Passmower.IngressDiscovery
import Passmower.Url.Resolution

/-! Where the redirects derived from an Ingress lead. A path is resolved against the host as the URL standard resolves
references, and nothing looks at what came out. -/
namespace Passmower
open JavaScript

structure ResolvedIngress where
  uri : String
  redirectUris : List String
  deriving DecidableEq, Repr

/- What an Ingress resolves to, or the problems; nothing where a path is no URL. -/
def resolveIngressRef (resolve : String → String → Option String) (ingress : Option Ingress) (redirectPaths : List String) :
    Option (Except (List String) ResolvedIngress) := match ingress with
  | none => some (.error ["the referenced Ingress does not exist"])
  | some ingress =>
      let hosts := hostsOf ingress
      let listing := ", ".intercalate hosts
      match hosts with
      | [] => some (.error ["the referenced Ingress has no host in spec.rules"])
      | host :: others =>
          if others ≠ [] then some (.error [s!"the referenced Ingress has {hosts.length} hosts ({listing})"])
          else if redirectPaths = [] then some (.error ["spec.redirectPaths is empty, so no redirect URI can be built"])
          else do
            let redirectUris ← redirectPaths.mapM fun path => resolve path s!"https://{host}"
            some (.ok ⟨s!"https://{host}/",redirectUris⟩)

section Redirects
variable (rules : Url.Rules)

def OnHost (host uri : String) : Prop := ∃ home rest tail,
  Url.home? rules ("https://" ++ host) = some (home,rest) ∧ uri = Url.href home tail

/- The path has no scheme, or `https:`, and does not go on with two slashes, unless the authority after them is the host's. -/
def StaysOn (host path : String) : Prop := ∃ home rest,
  Url.home? rules ("https://" ++ host) = some (home,rest) ∧ Url.Stays rules home path

variable {rules} {host path uri : String} {ingress : Ingress} {spec : OidcClientSpec}

theorem onName (plain : ∀ c ∈ host.toList, Url.isNameChar c = true) (given : host ≠ "")
    (known : rules.host host.toList = some host) : OnHost rules host uri ↔ ∃ tail, uri = "https://" ++ host ++ "/" ++ tail := by
  have home := Url.nameHome plain given known
  have text : (⟨"","",host,none⟩ : Url.Authority).text = host := by simp [Url.Authority.text,Url.Authority.credentials]
  constructor
  · rintro ⟨authority,rest,tail,found,same⟩
    cases Option.some.inj (home.symm.trans found)
    exact ⟨tail,by rw [same,Url.href,text]⟩
  · rintro ⟨tail,same⟩
    exact ⟨_,_,tail,home,by rw [same,Url.href,text]⟩

theorem resolvedOn (resolved : Url.resolve rules path ("https://" ++ host) = some uri) :
    OnHost rules host uri ↔ StaysOn rules host path := by
  obtain ⟨home,rest,found⟩ := Url.resolvedHome (Url.httpsScheme host) resolved
  have stays := Url.resolvedStays found resolved
  constructor
  · rintro ⟨home',rest',tail,found',same⟩
    cases Option.some.inj (found.symm.trans found')
    exact ⟨home,rest,found,stays.mp ⟨tail,same⟩⟩
  · rintro ⟨home',rest',found',own⟩
    cases Option.some.inj (found.symm.trans found')
    obtain ⟨tail,same⟩ := stays.mpr own
    exact ⟨home,rest,tail,found,same⟩

theorem allOn {paths uris : List String} (resolved : paths.mapM (fun path => Url.resolve rules path ("https://" ++ host)) = some uris) :
    (∀ uri ∈ uris, OnHost rules host uri) ↔ ∀ path ∈ paths, StaysOn rules host path := by
  induction paths generalizing uris with
  | nil =>
      cases Option.some.inj resolved
      simp
  | cons path rest ih =>
      simp only [List.mapM_cons,bind,Option.bind_eq_some_iff,pure] at resolved
      obtain ⟨uri,first,others,later,last⟩ := resolved
      cases Option.some.inj last
      simp only [List.forall_mem_cons]
      rw [resolvedOn first,ih later]

theorem oneHost (clear : discoveryProblems ingress = []) : ∃ host, hostsOf ingress = [host] := by
  have hosts := (List.append_eq_nil_iff.mp clear).1
  cases shape : hostsOf ingress with
  | nil => simp [shape] at hosts
  | cons host others =>
      cases others with
      | nil => exact ⟨host,rfl⟩
      | cons other more => simp [shape] at hosts

theorem derivedUris (derived : oidcClientSpecFor (Url.resolve rules) ingress = some spec) (one : hostsOf ingress = [host]) :
    ∃ uris, spec.redirectUris = some uris ∧
      (ingress.listed "redirect-path").mapM (fun path => Url.resolve rules path ("https://" ++ host)) = some uris := by
  simp only [oidcClientSpecFor,one,bind,Option.bind_eq_some_iff] at derived
  obtain ⟨uris,resolved,last⟩ := derived
  cases Option.some.inj last
  exact ⟨uris,rfl,resolved⟩

theorem resolvedUris {paths : List String} {resolved : ResolvedIngress}
    (found : resolveIngressRef (Url.resolve rules) (some ingress) paths = some (.ok resolved)) :
    ∃ host, hostsOf ingress = [host] ∧
      paths.mapM (fun path => Url.resolve rules path ("https://" ++ host)) = some resolved.redirectUris := by
  unfold resolveIngressRef at found
  dsimp only at found
  cases shape : hostsOf ingress with
  | nil => simp [shape] at found
  | cons host others =>
      simp only [shape] at found
      split at found
      · cases found
      rename_i alone
      split at found
      · cases found
      obtain ⟨uris,mapped,last⟩ := Option.bind_eq_some_iff.mp found
      cases Option.some.inj last
      exact ⟨host,by simpa using alone,mapped⟩

end Redirects

/- The redirects that are derived from an Ingress without problems lead to its host, on either way, exactly when every
path stays on it. -/
theorem derivedRedirects (rules : Url.Rules) :
    (∀ ingress spec, discoveryProblems ingress = [] → oidcClientSpecFor (Url.resolve rules) ingress = some spec →
      ∃ host, hostsOf ingress = [host] ∧ ((∀ uri ∈ spec.redirectUris.getD [], OnHost rules host uri) ↔
        ∀ path ∈ ingress.listed "redirect-path", StaysOn rules host path)) ∧
    ∀ ingress paths resolved, resolveIngressRef (Url.resolve rules) (some ingress) paths = some (.ok resolved) →
      ∃ host, hostsOf ingress = [host] ∧ ((∀ uri ∈ resolved.redirectUris, OnHost rules host uri) ↔
        ∀ path ∈ paths, StaysOn rules host path) := by
  constructor
  · intro ingress spec clear derived
    obtain ⟨host,one⟩ := oneHost clear
    obtain ⟨uris,here,resolved⟩ := derivedUris derived one
    refine ⟨host,one,?_⟩
    rw [here]
    exact allOn resolved
  · intro ingress paths resolved found
    obtain ⟨host,one,mapped⟩ := resolvedUris found
    exact ⟨host,one,allOn mapped⟩

def nameRules : Url.Rules where
  host text := if text.all Url.isNameChar then some (String.ofList (text.map Char.toLower)) else none
  hostPlain text out parsed := by
    split at parsed
    · rename_i plain
      cases Option.some.inj parsed
      intro slash
      simp only [String.toList_ofList,List.mem_map] at slash
      obtain ⟨c,inside,lower⟩ := slash
      cases Url.lowerSame lower (by decide)
      exact absurd (List.all_eq_true.mp plain _ inside) (by decide)
    · cases parsed
  userinfo text := String.ofList (text.filter (· != '/'))
  userinfoPlain text := by simp
  tail text := String.ofList (text.dropWhile Url.isSlash)
  relative _ text := String.ofList (text.dropWhile Url.isSlash)
  other _ rest := some (String.ofList rest)
  elsewhere _ _ := none

def annotatedGrafana (paths : String) : Ingress where
  name := "grafana"
  uid := "1"
  annotations := [("codemowers.io/oidc-redirect-path",paths)]
  rules := [some "grafana.example.com"]

theorem grafanaName {uri : String} : OnHost nameRules "grafana.example.com" uri ↔
    ∃ tail, uri = "https://grafana.example.com" ++ "/" ++ tail :=
  onName (List.all_eq_true.mp (by decide)) (by decide) (by decide)

/- Two slashes lead to another host. -/
theorem redirectEscapes : ¬ ∀ (rules : Url.Rules) ingress spec host, discoveryProblems ingress = [] →
    oidcClientSpecFor (Url.resolve rules) ingress = some spec → hostsOf ingress = [host] →
    ∀ uri ∈ spec.redirectUris.getD [], OnHost rules host uri := by
  intro always
  have derived : ((oidcClientSpecFor (Url.resolve nameRules) (annotatedGrafana "//evil.example.net/cb")).map
      (·.redirectUris)) = some (some ["https://evil.example.net/cb"]) := by decide +kernel
  obtain ⟨spec,here,uris⟩ := Option.map_eq_some_iff.mp derived
  have stays := always nameRules (annotatedGrafana "//evil.example.net/cb") spec "grafana.example.com" (by decide +kernel)
    here (by decide +kernel) "https://evil.example.net/cb" (by simp [uris])
  obtain ⟨tail,same⟩ := grafanaName.mp stays
  have ninth := congrArg (fun text => text.toList[8]?) same
  simp [String.toList_append] at ninth

theorem loginStays : ∃ spec host, oidcClientSpecFor (Url.resolve nameRules) (annotatedGrafana "/login") = some spec ∧
    ∀ uri ∈ spec.redirectUris.getD [], OnHost nameRules host uri := by
  obtain ⟨spec,here⟩ : ∃ spec, oidcClientSpecFor (Url.resolve nameRules) (annotatedGrafana "/login") = some spec :=
    Option.isSome_iff_exists.mp (by decide +kernel)
  obtain ⟨host,one,stays⟩ := (derivedRedirects nameRules).1 (annotatedGrafana "/login") spec (by decide +kernel) here
  refine ⟨spec,host,here,stays.mpr fun path inside => ?_⟩
  have only : (annotatedGrafana "/login").listed "redirect-path" = ["/login"] := by decide +kernel
  have name : hostsOf (annotatedGrafana "/login") = ["grafana.example.com"] := by decide +kernel
  cases List.mem_singleton.mp (only ▸ inside)
  cases one.symm.trans name
  exact ⟨_,_,Url.nameHome (List.all_eq_true.mp (by decide)) (by decide) (by decide),_,rfl,fun names => absurd names (by decide)⟩

end Passmower
