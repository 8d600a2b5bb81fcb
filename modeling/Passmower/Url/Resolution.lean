import Mathlib
import Passmower.JavaScript

/-! References resolved against `https:` URLs, as the URL standard has it: the scheme, the authority and where they are
taken from. How a host is parsed, how credentials, paths and queries are encoded, and what URLs of other schemes look
like, is left open. -/
namespace Url

/- What the resolution below leaves open. The text of a host or of credentials has no slash. -/
structure Rules where
  host : List Char → Option String
  hostPlain : ∀ text out, host text = some out → '/' ∉ out.toList
  userinfo : List Char → String
  userinfoPlain : ∀ text, '/' ∉ (userinfo text).toList
  -- the path, query and fragment after the first slash: of a reference by itself, and against those of the base
  tail : List Char → String
  relative : List Char → List Char → String
  -- what follows another scheme, and references against bases of other schemes
  other : String → List Char → Option String
  elsewhere : String → String → Option String

def isSlash (c : Char) : Bool := c = '/' || c = '\\'

def isControlOrSpace (c : Char) : Bool := c.toNat ≤ 0x20

def isTabOrNewline (c : Char) : Bool := c = '\t' || c = '\n' || c = '\r'

def stripped (text : String) : List Char :=
  (((text.toList.dropWhile isControlOrSpace).reverse.dropWhile isControlOrSpace).reverse).filter (!isTabOrNewline ·)

def isSchemeChar (c : Char) : Bool := c.isAlphanum || c = '+' || c = '-' || c = '.'

def scheme? : List Char → Option (String × List Char)
  | [] => none
  | c :: rest =>
      if c.isAlpha then match rest.dropWhile isSchemeChar with
        | ':' :: after => some (String.ofList ((c :: rest.takeWhile isSchemeChar).map Char.toLower),after)
        | _ => none
      else none

structure Authority where
  username : String := ""
  password : String := ""
  host : String
  port : Option Nat := none
  deriving DecidableEq, Repr

def Authority.credentials (authority : Authority) : String :=
  if authority.username = "" ∧ authority.password = "" then ""
  else authority.username ++ (if authority.password = "" then "" else ":" ++ authority.password) ++ "@"

def Authority.text (authority : Authority) : String :=
  authority.credentials ++ authority.host ++ match authority.port with
    | none => ""
    | some port => ":" ++ toString port

def endsAuthority (c : Char) : Bool := isSlash c || c = '?' || c = '#'

def credentials? (text : List Char) : Option (List Char) × List Char :=
  let back := text.reverse
  (if '@' ∈ text then some ((back.dropWhile (· != '@')).drop 1).reverse else none,(back.takeWhile (· != '@')).reverse)

def hostAndPort (inside : Bool) : List Char → List Char × Option (List Char)
  | [] => ([],none)
  | c :: rest =>
      if c = ':' ∧ inside = false then ([],some rest)
      else
        let out := hostAndPort (if c = '[' then true else if c = ']' then false else inside) rest
        (c :: out.1,out.2)

def port? (text : List Char) : Option (Option Nat) :=
  if text.all Char.isDigit then
    let number := text.foldl (fun number c => number * 10 + (c.toNat - '0'.toNat)) 0
    if number > 65535 then none
    else some (if text = [] ∨ number = 443 then none else some number)
  else none

section Resolution
variable (rules : Rules)

def host? (text : List Char) : Option String := if text = [] then none else rules.host text

def encode (text : List Char) : String := if text = [] then "" else rules.userinfo text

def authority? (text : List Char) : Option (Authority × List Char) := do
  let (credentials,place) := credentials? (text.takeWhile (!endsAuthority ·))
  let (host,port) := hostAndPort false place
  let host ← host? rules host
  let port ← (port.map port?).getD (some none)
  let username := (credentials.getD []).takeWhile (· != ':')
  let password := ((credentials.getD []).dropWhile (· != ':')).drop 1
  some (⟨encode rules username,encode rules password,host,port⟩,text.dropWhile (!endsAuthority ·))

def home? (base : String) : Option (Authority × List Char) := match scheme? (stripped base) with
  | some (scheme,rest) => if scheme = "https" then authority? rules (rest.dropWhile isSlash) else none
  | none => none

def namesAuthority : List Char → Bool
  | c :: d :: _ => isSlash c && isSlash d
  | _ => false

def href (authority : Authority) (tail : String) : String := "https://" ++ authority.text ++ "/" ++ tail

def onward (home : Authority) (homeRest text : List Char) : Option String :=
  if namesAuthority text then do
    let (authority,rest) ← authority? rules (text.dropWhile isSlash)
    some (href authority (rules.tail rest))
  else some (href home (rules.relative homeRest text))

def sameScheme (text : List Char) : Option (List Char) := match scheme? text with
  | some (scheme,rest) => if scheme = "https" then some rest else none
  | none => some text

/- `new URL(reference, base).href`; nothing where it throws. -/
def resolve (reference base : String) : Option String :=
  if (scheme? (stripped base)).map Prod.fst = some "https" then do
    let (home,homeRest) ← home? rules base
    match scheme? (stripped reference) with
    | some (scheme,rest) =>
        if scheme = "https" then onward rules home homeRest rest
        else do
          let rest ← rules.other scheme rest
          some (scheme ++ ":" ++ rest)
    | none => onward rules home homeRest (stripped reference)
  else rules.elsewhere reference base

/- The reference has no scheme, or `https:`, and names no authority but the one it is resolved against. -/
def Stays (home : Authority) (reference : String) : Prop := ∃ text, sameScheme (stripped reference) = some text ∧
  (namesAuthority text = true → ∃ authority rest, authority? rules (text.dropWhile isSlash) = some (authority,rest) ∧
    authority.text = home.text)

variable {rules}

theorem lowerSame {c d : Char} (lower : c.toLower = d) (special : d.isLower = false) : c = d := by
  unfold Char.toLower at lower
  split at lower
  · rename_i upper
    subst lower
    simp only [Char.isLower,Bool.and_eq_false_iff,decide_eq_false_iff_not,ge_iff_le,UInt32.le_iff_toNat_le] at special upper
    simp at special upper
    omega
  · exact lower

theorem schemePlain {text rest : List Char} {name : String} (found : scheme? text = some (name,rest)) :
    ':' ∉ name.toList := by
  cases text with
  | nil => cases found
  | cons c text =>
      simp only [scheme?] at found
      split at found
      · rename_i letter
        split at found
        · cases Option.some.inj found
          intro inside
          simp only [String.toList_ofList,List.mem_map] at inside
          obtain ⟨d,member,lower⟩ := inside
          cases lowerSame lower (by decide)
          rcases List.mem_cons.mp member with rfl | later
          · exact absurd letter (by decide)
          · exact absurd (List.mem_takeWhile_imp later) (by decide)
        · cases found
      · cases found

theorem digitsPlain (port : Nat) : '/' ∉ Nat.toDigits 10 port := by
  intro inside
  have digit := Nat.isDigit_of_mem_toDigits (by decide) (by decide) inside
  exact absurd digit (by decide)

theorem authorityPlain {text rest : List Char} {authority : Authority}
    (found : authority? rules text = some (authority,rest)) : '/' ∉ authority.text.toList := by
  simp only [authority?,bind,Option.bind_eq_some_iff] at found
  obtain ⟨host,parsed,port,-,last⟩ := found
  cases Option.some.inj last
  have hostPlain : '/' ∉ host.toList := by
    unfold host? at parsed
    split at parsed
    · cases parsed
    · exact rules.hostPlain _ _ parsed
  have encoded (text : List Char) : '/' ∉ (encode rules text).toList := by
    unfold encode
    split
    · decide
    · exact rules.userinfoPlain text
  have credentialsPlain (username password : String) (first : '/' ∉ username.toList) (second : '/' ∉ password.toList) :
      '/' ∉ (Authority.credentials ⟨username,password,host,port⟩).toList := by
    unfold Authority.credentials
    split
    · decide
    · split
      · simp [first]
      · simp [first,second]
  unfold Authority.text
  cases port with
  | none => simp [credentialsPlain _ _ (encoded _) (encoded _),hostPlain]
  | some port => simp [credentialsPlain _ _ (encoded _) (encoded _),hostPlain,digitsPlain]

theorem hrefSame {a b : Authority} {tail tail' : String} (plain : '/' ∉ a.text.toList) (plain' : '/' ∉ b.text.toList)
    (same : href a tail = href b tail') : a.text = b.text := by
  have texts := congrArg String.toList same
  have slash : "/".toList = ['/'] := rfl
  simp only [href,String.toList_append,slash,List.append_assoc,List.append_cancel_left_eq,List.singleton_append] at texts
  exact String.toList_inj.mp (JavaScript.untilSeparator plain plain' texts).1

theorem schemeSame {name rest tail : String} {authority : Authority} (plain : ':' ∉ name.toList)
    (same : name ++ ":" ++ rest = href authority tail) : name = "https" := by
  have texts := congrArg String.toList same
  have colon : ":".toList = [':'] := rfl
  have shape : "https://".toList = "https".toList ++ [':','/','/'] := rfl
  simp only [href,String.toList_append,colon,shape,List.append_assoc,List.cons_append] at texts
  exact String.toList_inj.mp (JavaScript.untilSeparator plain (by decide) texts).1

theorem homeScheme {base : String} {home : Authority} {homeRest : List Char} (found : home? rules base = some (home,homeRest)) :
    (scheme? (stripped base)).map Prod.fst = some "https" := by
  unfold home? at found
  split at found
  · rename_i scheme rest here
    split at found
    · rename_i https
      simp [here,https]
    · cases found
  · cases found

theorem homePlain {base : String} {home : Authority} {homeRest : List Char} (found : home? rules base = some (home,homeRest)) :
    '/' ∉ home.text.toList := by
  unfold home? at found
  split at found
  · split at found
    · exact authorityPlain found
    · cases found
  · cases found

theorem onwardStays {home : Authority} {homeRest text : List Char} {uri : String} (plain : '/' ∉ home.text.toList)
    (resolved : onward rules home homeRest text = some uri) : (∃ tail, uri = href home tail) ↔
      (namesAuthority text = true → ∃ authority rest, authority? rules (text.dropWhile isSlash) = some (authority,rest) ∧
        authority.text = home.text) := by
  unfold onward at resolved
  split at resolved
  · rename_i names
    simp only [bind,Option.bind_eq_some_iff] at resolved
    obtain ⟨⟨authority,rest⟩,found,last⟩ := resolved
    cases Option.some.inj last
    constructor
    · rintro ⟨tail,same⟩ _
      exact ⟨authority,rest,found,hrefSame (authorityPlain found) plain same⟩
    · intro named
      obtain ⟨authority',rest',found',same⟩ := named names
      cases Option.some.inj (found.symm.trans found')
      exact ⟨rules.tail rest,by rw [href,same,href]⟩
  · rename_i unnamed
    cases Option.some.inj resolved
    exact iff_of_true ⟨_,rfl⟩ fun names => absurd names unnamed

theorem resolvedStays {reference base uri : String} {home : Authority} {homeRest : List Char}
    (found : home? rules base = some (home,homeRest)) (resolved : resolve rules reference base = some uri) :
    (∃ tail, uri = href home tail) ↔ Stays rules home reference := by
  unfold resolve at resolved
  rw [if_pos (homeScheme found)] at resolved
  simp only [found,bind,Option.bind_some] at resolved
  unfold Stays sameScheme
  cases scheme : scheme? (stripped reference) with
  | none =>
      rw [scheme] at resolved
      simpa using onwardStays (homePlain found) resolved
  | some own =>
      obtain ⟨name,rest⟩ := own
      rw [scheme] at resolved
      dsimp only at resolved ⊢
      by_cases https : name = "https"
      · rw [if_pos https] at resolved ⊢
        simpa using onwardStays (homePlain found) resolved
      · rw [if_neg https] at resolved ⊢
        obtain ⟨more,-,last⟩ := Option.bind_eq_some_iff.mp resolved
        cases Option.some.inj last
        refine iff_of_false ?_ (by rintro ⟨text,same,-⟩; cases same)
        rintro ⟨tail,same⟩
        exact https (schemeSame (schemePlain scheme) same)

theorem resolvedHome {reference base uri : String} (https : (scheme? (stripped base)).map Prod.fst = some "https")
    (resolved : resolve rules reference base = some uri) : ∃ home homeRest, home? rules base = some (home,homeRest) := by
  unfold resolve at resolved
  rw [if_pos https] at resolved
  obtain ⟨⟨home,homeRest⟩,found,-⟩ := Option.bind_eq_some_iff.mp resolved
  exact ⟨home,homeRest,found⟩

def isNameChar (c : Char) : Bool := c.isAlphanum || c = '-' || c = '.' || c = '*'

theorem strippedHttps (text : String) : stripped ("https://" ++ text) = "https://".toList ++
    ((text.toList.reverse.dropWhile isControlOrSpace).reverse).filter (!isTabOrNewline ·) := by
  have front : ("https://" ++ text).toList.dropWhile isControlOrSpace = "https://".toList ++ text.toList := by
    rw [String.toList_append]
    exact List.dropWhile_cons_of_neg (by decide)
  have back : "https://".toList.reverse.dropWhile isControlOrSpace = "https://".toList.reverse := by decide
  have kept : "https://".toList.filter (!isTabOrNewline ·) = "https://".toList := by decide
  have trimmed : (text.toList.reverse ++ "https://".toList.reverse).dropWhile isControlOrSpace =
      text.toList.reverse.dropWhile isControlOrSpace ++ "https://".toList.reverse := by
    rw [List.dropWhile_append]
    split
    · rename_i nothing
      rw [back,List.isEmpty_iff.mp nothing,List.nil_append]
    · rfl
  unfold stripped
  rw [front,List.reverse_append,trimmed,List.reverse_append,List.reverse_reverse,List.filter_append,kept]

theorem httpsScheme (text : String) : (scheme? (stripped ("https://" ++ text))).map Prod.fst = some "https" := by
  rw [strippedHttps]
  rfl

theorem nameChar {c : Char} (plain : isNameChar c = true) : isControlOrSpace c = false ∧ isTabOrNewline c = false ∧
    endsAuthority c = false ∧ c ≠ '@' ∧ c ≠ ':' ∧ c ≠ '[' ∧ c ≠ ']' := by
  have apart {d : Char} (special : isNameChar d = false) : c ≠ d := by
    rintro rfl
    rw [special] at plain
    cases plain
  refine ⟨?_,?_,?_,apart (by decide),apart (by decide),apart (by decide),apart (by decide)⟩
  · simp only [isNameChar,Char.isAlphanum,Char.isAlpha,Char.isUpper,Char.isLower,Char.isDigit,Bool.or_eq_true,
      Bool.and_eq_true,decide_eq_true_eq,UInt32.le_iff_toNat_le,ge_iff_le] at plain
    have value : c.toNat = c.val.toNat := rfl
    have letters : 'A'.val.toNat = 65 ∧ 'a'.val.toNat = 97 ∧ '0'.val.toNat = 48 := ⟨rfl,rfl,rfl⟩
    have large : 0x20 < c.toNat := by
      rcases plain with ((alphanumeric | rfl) | rfl) | rfl
      · omega
      · decide
      · decide
      · decide
    simp only [isControlOrSpace,decide_eq_false_iff_not]
    omega
  · simp [isTabOrNewline,apart (d := '\t') (by decide),apart (d := '\n') (by decide),apart (d := '\r') (by decide)]
  · simp [endsAuthority,isSlash,apart (d := '/') (by decide),apart (d := '\\') (by decide),apart (d := '?') (by decide),
      apart (d := '#') (by decide)]

theorem nameAlone {text : List Char} (plain : ∀ c ∈ text, isNameChar c = true) : hostAndPort false text = (text,none) := by
  induction text with
  | nil => rfl
  | cons c rest ih =>
      obtain ⟨-,-,-,-,colon,opens,closes⟩ := nameChar (plain c List.mem_cons_self)
      unfold hostAndPort
      rw [if_neg fun both => colon both.1,if_neg opens,if_neg closes,ih fun d inside => plain d (List.mem_cons_of_mem _ inside)]

theorem nameTrimmed {text : List Char} (plain : ∀ c ∈ text, isNameChar c = true) :
    ((text.reverse.dropWhile isControlOrSpace).reverse).filter (!isTabOrNewline ·) = text := by
  have kept : text.reverse.dropWhile isControlOrSpace = text.reverse := by
    cases shape : text.reverse with
    | nil => rfl
    | cons c rest =>
        have inside : c ∈ text := List.mem_reverse.mp (shape ▸ List.mem_cons_self)
        exact List.dropWhile_cons_of_neg (by simp [(nameChar (plain c inside)).1])
  rw [kept,List.reverse_reverse,List.filter_eq_self.mpr]
  intro c inside
  simp [(nameChar (plain c inside)).2.1]

theorem nameUnslashed {text : List Char} (plain : ∀ c ∈ text, isNameChar c = true) :
    ('/' :: '/' :: text).dropWhile isSlash = text := by
  have slash : isSlash '/' = true := by decide
  rw [List.dropWhile_cons_of_pos slash,List.dropWhile_cons_of_pos slash]
  cases text with
  | nil => rfl
  | cons c rest =>
      have ends := (nameChar (plain c List.mem_cons_self)).2.2.1
      simp only [endsAuthority,Bool.or_eq_false_iff] at ends
      exact List.dropWhile_cons_of_neg (by simp [ends.1.1])

theorem nameAnonymous {text : List Char} (plain : ∀ c ∈ text, isNameChar c = true) : credentials? text = (none,text) := by
  have anonymous : '@' ∉ text := fun inside => (nameChar (plain _ inside)).2.2.2.1 rfl
  have whole : text.reverse.takeWhile (· != '@') = text.reverse := by
    refine List.takeWhile_eq_self_iff.mpr fun c inside => ?_
    simpa using (nameChar (plain c (List.mem_reverse.mp inside))).2.2.2.1
  simp [credentials?,anonymous,whole]

theorem nameHome {name : String} (plain : ∀ c ∈ name.toList, isNameChar c = true) (given : name ≠ "")
    (known : rules.host name.toList = some name) : home? rules ("https://" ++ name) = some (⟨"","",name,none⟩,[]) := by
  have all : ∀ c ∈ name.toList, (!endsAuthority c) = true := fun c inside => by simp [(nameChar (plain c inside)).2.2.1]
  have text : name.toList.takeWhile (!endsAuthority ·) = name.toList := List.takeWhile_eq_self_iff.mpr all
  have done : name.toList.dropWhile (!endsAuthority ·) = [] := List.dropWhile_eq_nil_iff.mpr all
  have scheme : scheme? ("https://".toList ++ name.toList) = some ("https",'/' :: '/' :: name.toList) := rfl
  have nonempty : name.toList ≠ [] := fun empty => given (String.toList_inj.mp empty)
  unfold home?
  rw [strippedHttps,nameTrimmed plain,scheme]
  dsimp only
  rw [if_pos rfl,nameUnslashed plain]
  unfold authority?
  simp only [text,nameAnonymous plain,done,nameAlone plain]
  simp [host?,nonempty,known,encode]

end Resolution
end Url
