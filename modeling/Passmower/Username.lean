import Passmower.Configuration

/-! The username rules, shared by the enter-username form and the `upstream` enrolment. -/
namespace Passmower

def blacklist : List String :=
  ["admin","adm","_apt","audio","avahi","avahi-autoipd","backup","bin","bluetooth","cdrom","colord",
   "crontab","cups-pk-helper","daemon","debian-tor","dialout","dip","disk","dnsmasq","docker","fax",
   "_flatpak","floppy","freerad","games","gdm","geoclue","gnats","gnome-initial-setup","hplip",
   "input","iocard","irc","kernoops","kmem","kvm","lauri","lightdm","libvirt","libvirt-dnsmasq",
   "libvirt-qemu","list","lp","lpadmin","lxc-dnsmasq","mail","man","messagebus","minidlna",
   "mlocate","mopidy","mpd","netdev","news","nm-openvpn","nobody","nogroup","operator","plugdev",
   "proxy","pulse","pulse-access","rdma","redis","render","root","_rpc","rtkit","sambashare",
   "saned","sasl","scanner","shadow","speech-dispatcher","src","ssh","sshd","ssl-cert","staff",
   "statd","sudo","sunxi-fel","sync","sys","syslog","systemd-coredump","systemd-journal",
   "systemd-network","systemd-resolve","systemd-timesync","tape","tcpdump","tss","tty","usbmux",
   "users","usrp","utmp","uucp","uuidd","vboxusers","video","voice","wheel","whoopsie",
   "www-data","administrator","guest","null"]

def usernameRules (env : Env) : List ((String → Bool) × String) :=
  [(fun v => 3 ≤ v.length && v.length ≤ 15,"Username must be 3-15 characters"),
   (fun v => v ≠ "" && v.toList.all Char.isAlphanum,"Username must be alphanumeric"),
   (fun v => v ∉ blacklist,"Prohibited username"),
   (fun v => v.toList.head?.any Char.isLower,"Username must start with a letter"),
   (fun v => env.toLowerCase v = v,"Username must be lowercase")]

def usernameErrors (env : Env) (value : String) : List String :=
  ((usernameRules env).filter (fun rule => !rule.1 value)).map Prod.snd

def isUsernameValid (env : Env) (value : String) : Bool :=
  value ≠ "" && (usernameRules env).all (fun rule => rule.1 value)

def sanitizeUsername (env : Env) (raw : Option String) : Option String := do
  let raw ← truthy raw
  let first := (env.toLowerCase raw).toList.takeWhile (· ≠ '@')
  let letters := first.filter (fun c => c.isLower || c.isDigit)
  truthy (some (String.ofList ((letters.dropWhile Char.isDigit).take 15)))

theorem validUsernameHasNoErrors {env value} (valid : isUsernameValid env value = true) :
    usernameErrors env value = [] := by
  have every := (Bool.and_eq_true_iff.mp valid).2
  rw [List.all_eq_true] at every
  have none : (usernameRules env).filter (fun rule => !rule.1 value) = [] :=
    List.filter_eq_nil_iff.mpr (fun rule member => by simp [every rule member])
  simp [usernameErrors,none]

example : sanitizeUsername {} (some "42Jo.Hn@corp.example") = some "john" := by decide

end Passmower
