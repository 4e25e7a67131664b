import Querent.Config.Url
import Querent.Proofs.Config.Ports
import Querent.Proofs.Text.Separators

/-!
# Configurations and their URLs

A locator says what a URL of a database names. Each of its parts may hold all characters
but those at which a text with this part is cut before: `/` ends all that is in front of
the database, the last `@` ends the credentials, the first `:` in these ends the user, and
the last `:` behind them ends the host. Reading gives back what was written, and it fails
only for want of the scheme or of a port.
-/

namespace Querent

open Text

/-- A user, and a password if there is one. -/
structure Credentials where
  user : String
  password : Option String
  user_plain : ':' ∉ user.toList ∧ '/' ∉ user.toList
  password_plain : ∀ p ∈ password, '/' ∉ p.toList

/-- What a URL names; the host and the port may be left to their defaults. -/
structure Locator where
  credentials : Option Credentials
  host : Option String
  port : Option UInt16
  database : Option String
  host_ne : ∀ h ∈ host, h ≠ ""
  host_plain : ∀ h ∈ host, '/' ∉ h.toList ∧ '@' ∉ h.toList
  /-- a colon stands in a host only if the one of the port is behind it -/
  host_alone : port = none → ∀ h ∈ host, ':' ∉ h.toList
  database_ne : ∀ d ∈ database, d ≠ ""

def Credentials.text (c : Credentials) : String :=
  match c.password with
  | some password => c.user ++ ":" ++ password
  | none => c.user

namespace Locator

/-- The URL `nowdb://[user[:password]@]host[:port][/database]`. -/
def text (l : Locator) : String :=
  "nowdb://" ++ l.credentials.elim "" (·.text ++ "@") ++ l.host.getD "" ++
    l.port.elim "" (":" ++ toString ·.toNat) ++ l.database.elim "" ("/" ++ ·)

/-- The configuration with what is named, and defaults for all else. -/
def config (l : Locator) : Config :=
  let d : Config := {}
  { d with
    host := l.host.getD d.host
    port := l.port.getD d.port
    user := l.credentials.map (·.user)
    password := l.credentials.bind (·.password)
    database := l.database }

end Locator

namespace Config

variable {url : String} {rest authority address : List Char}

/-! ## The parts of a URL -/

/-- Of what follows the scheme, the part in which the host is: in front of the first `/`,
and behind the last `@` there. -/
inductive HostPart : (rest address : List Char) → Prop
  | cut {credentials address tail : List Char} :
    (credentials = [] ∨ ∃ text, credentials = text ++ ['@']) →
    (tail = [] ∨ ∃ text, tail = '/' :: text) → '/' ∉ credentials → '/' ∉ address →
    '@' ∉ address → HostPart (credentials ++ address ++ tail) address

/-- Why a URL is refused. -/
inductive Refused (url : String) : BadConfig → Prop
  | scheme : ¬ scheme.toList <+: url.toList → Refused url (.scheme url)
  | port {rest host text : List Char} : url.toList = Config.scheme.toList ++ rest →
    HostPart rest (host ++ ':' :: text) → ':' ∉ text → (∀ port, ¬ IsPort port text) →
    Refused url (.port (String.ofList text))

/-- What is in front of the first `/`, and what is behind it. -/
def cutDatabase (rest : List Char) : List Char × List Char :=
  (splitFirst? '/' rest).getD (rest, [])

/-- The credentials in front of the last `@`, and what is behind it. -/
def cutCredentials (authority : List Char) : Option (String × Option String) × List Char :=
  match splitLast? '@' authority with
  | some (credentials, address) => (some (readCredentials credentials), address)
  | none => (none, authority)

theorem ofUrl_eq (h : url.toList = scheme.toList ++ rest) :
    ofUrl url = (readAddress (cutCredentials (cutDatabase rest).1).2).map fun (host, port) =>
      { host, port
        user := (cutCredentials (cutDatabase rest).1).1.map (·.1)
        password := (cutCredentials (cutDatabase rest).1).1.bind (·.2)
        database := if (cutDatabase rest).2.isEmpty then none
          else some (String.ofList (cutDatabase rest).2) } := by
  rw [ofUrl, dropStart?_eq_some_iff.mpr h]
  show (do
    let (host, port) ← readAddress (cutCredentials (cutDatabase rest).1).2
    return (_ : Config)) = _
  cases readAddress (cutCredentials (cutDatabase rest).1).2 <;> rfl

/-! ## Cutting -/

theorem cutDatabase_of_not_mem (h : '/' ∉ rest) : cutDatabase rest = (rest, []) := by
  rw [cutDatabase, splitFirst?_eq_none h]
  rfl

theorem cutDatabase_append (h : '/' ∉ authority) (database : List Char) :
    cutDatabase (authority ++ '/' :: database) = (authority, database) := by
  rw [cutDatabase, splitFirst?_append h]
  rfl

theorem cutCredentials_of_not_mem (h : '@' ∉ authority) :
    cutCredentials authority = (none, authority) := by
  rw [cutCredentials, splitLast?_eq_none h]

theorem cutCredentials_append (credentials : List Char) (h : '@' ∉ address) :
    cutCredentials (credentials ++ '@' :: address) =
      (some (readCredentials credentials), address) := by
  rw [cutCredentials, splitLast?_append credentials h]

theorem HostPart.cutCredentials_eq (h : HostPart rest address) :
    (cutCredentials (cutDatabase rest).1).2 = address := by
  obtain @⟨credentials, address, tail, hcredentials, htail, hslash, hslash', hat⟩ := h
  have authority : '/' ∉ credentials ++ address := by simp [hslash, hslash']
  have hcut : (cutDatabase (credentials ++ address ++ tail)).1 = credentials ++ address := by
    rcases htail with rfl | ⟨database, rfl⟩
    · rw [List.append_nil, cutDatabase_of_not_mem authority]
    · rw [cutDatabase_append authority]
  rw [hcut]
  rcases hcredentials with rfl | ⟨text, rfl⟩
  · rw [List.nil_append, cutCredentials_of_not_mem hat]
  · rw [List.append_assoc, List.singleton_append, cutCredentials_append text hat]

theorem hostPart_cutCredentials (rest : List Char) :
    HostPart rest (cutCredentials (cutDatabase rest).1).2 := by
  obtain ⟨authority, tail, rfl, htail, hslash, hcut⟩ : ∃ authority tail,
      rest = authority ++ tail ∧ (tail = [] ∨ ∃ text, tail = '/' :: text) ∧ '/' ∉ authority ∧
        (cutDatabase rest).1 = authority := by
    by_cases hslash : '/' ∈ rest
    · obtain ⟨authority, database, rfl, hbefore⟩ := List.eq_append_cons_of_mem hslash
      exact ⟨authority, _, rfl, .inr ⟨database, rfl⟩, hbefore, by rw [cutDatabase_append hbefore]⟩
    · exact ⟨rest, [], (List.append_nil rest).symm, .inl rfl, hslash,
        by rw [cutDatabase_of_not_mem hslash]⟩
  rw [hcut]
  by_cases hat : '@' ∈ authority
  · obtain ⟨text, address, rfl, hbehind⟩ := exists_last_of_mem hat
    rw [cutCredentials_append text hbehind]
    have hcredentials : '/' ∉ text ++ ['@'] := fun h => hslash (by
      rw [← List.singleton_append, ← List.append_assoc]
      exact List.mem_append_left address h)
    have haddress : '/' ∉ address := fun h =>
      hslash (List.mem_append_right text (List.mem_cons_of_mem '@' h))
    have cut := HostPart.cut (.inr ⟨text, rfl⟩) htail hcredentials haddress hbehind
    rwa [List.append_assoc text, List.singleton_append] at cut
  · rw [cutCredentials_of_not_mem hat]
    exact .cut (.inl rfl) htail (by simp) hslash hat

/-! ## Failing -/

theorem readAddress_eq_error_iff {e : Error} : readAddress address = .error e ↔
    ∃ host text, address = host ++ ':' :: text ∧ ':' ∉ text ∧
      readPort (String.ofList text) = .error e := by
  rw [readAddress]
  constructor
  · intro h
    cases hsplit : splitLast? ':' address with
    | none =>
      rw [hsplit] at h
      cases h
    | some parts =>
      obtain ⟨hbehind, haddress⟩ := splitLast?_eq_some_iff.mp hsplit
      refine ⟨parts.1, parts.2, haddress, hbehind, ?_⟩
      rw [hsplit] at h
      revert h
      dsimp only
      cases readPort (String.ofList parts.2) <;> simp [Except.map]
  · rintro ⟨host, text, rfl, hbehind, h⟩
    rw [splitLast?_append host hbehind]
    dsimp only
    rw [h]
    rfl

theorem ofUrl_eq_error_iff {e : Error} :
    ofUrl url = .error e ↔ ∃ what, e = .config what ∧ Refused url what := by
  by_cases hscheme : scheme.toList <+: url.toList
  · obtain ⟨rest, hrest⟩ := hscheme
    have hread : ofUrl url = .error e ↔
        readAddress (cutCredentials (cutDatabase rest).1).2 = .error e := by
      rw [ofUrl_eq hrest.symm]
      cases readAddress (cutCredentials (cutDatabase rest).1).2 <;> simp [Except.map]
    rw [hread, readAddress_eq_error_iff]
    constructor
    · rintro ⟨host, text, haddress, hbehind, hport⟩
      obtain ⟨rfl, hnone⟩ := readPort_eq_error_iff.mp hport
      rw [String.toList_ofList] at hnone
      exact ⟨_, rfl, .port hrest.symm (haddress ▸ hostPart_cutCredentials rest) hbehind hnone⟩
    · rintro ⟨what, rfl, hwhat⟩
      cases hwhat with
      | scheme hnot => exact absurd ⟨rest, hrest⟩ hnot
      | @port rest' host text hrest' hpart hbehind hnone =>
        obtain rfl : rest = rest' := List.append_cancel_left (hrest.trans hrest')
        refine ⟨host, text, hpart.cutCredentials_eq, hbehind, ?_⟩
        exact readPort_eq_error_iff.mpr ⟨rfl, by rwa [String.toList_ofList]⟩
  · have hdrop : dropStart? scheme.toList url.toList = none := by
      rw [Option.eq_none_iff_forall_ne_some]
      intro rest h
      exact hscheme ⟨rest, (dropStart?_eq_some_iff.mp h).symm⟩
    have hrefused : ofUrl url = .error (.config (.scheme url)) := by
      rw [ofUrl, hdrop]
      rfl
    rw [hrefused]
    constructor
    · intro h
      exact ⟨_, (Except.error.inj h).symm, .scheme hscheme⟩
    · rintro ⟨what, rfl, hwhat⟩
      cases hwhat with
      | scheme => rfl
      | port hrest => exact absurd ⟨_, hrest.symm⟩ hscheme

/-! ## Reading what was written -/

theorem readCredentials_text (c : Credentials) :
    readCredentials c.text.toList = (c.user, c.password) := by
  obtain ⟨user, password, ⟨hcolon, -⟩, -⟩ := c
  cases password with
  | none => simp [Credentials.text, readCredentials, splitFirst?_eq_none hcolon]
  | some password =>
    simp [Credentials.text, readCredentials, splitFirst?_append hcolon password.toList]

end Config

theorem Credentials.slash_not_mem (c : Credentials) : '/' ∉ c.text.toList := by
  obtain ⟨user, password, ⟨-, huser⟩, hpassword⟩ := c
  cases password with
  | none => exact huser
  | some password => simp [text, huser, hpassword password rfl]

namespace Locator

open Config

variable (l : Locator)

/-- The host part of the URL. -/
def address : List Char :=
  (l.host.getD "").toList ++ l.port.elim [] fun p => ':' :: Nat.toDigits 10 p.toNat

/-- All of the URL between the scheme and the database. -/
def authority : List Char := l.credentials.elim [] (·.text.toList ++ ['@']) ++ l.address

theorem text_toList : l.text.toList =
    scheme.toList ++ (l.authority ++ l.database.elim [] ('/' :: ·.toList)) := by
  have hport : (l.port.elim "" (":" ++ toString ·.toNat)).toList =
      l.port.elim [] fun p => ':' :: Nat.toDigits 10 p.toNat := by
    cases l.port <;> simp
  have hcredentials : (l.credentials.elim "" (·.text ++ "@")).toList =
      l.credentials.elim [] (·.text.toList ++ ['@']) := by
    cases l.credentials <;> simp
  have hdatabase : (l.database.elim "" ("/" ++ ·)).toList =
      l.database.elim [] ('/' :: ·.toList) := by
    cases l.database <;> simp
  simp only [text, String.toList_append, hport, hcredentials, hdatabase, address, authority,
    scheme, List.append_assoc]

theorem not_mem_toDigits {c : Char} (hc : ¬ c.isDigit) (n : Nat) : c ∉ Nat.toDigits 10 n :=
  fun h => hc (Nat.isDigit_of_mem_toDigits (by decide) (by decide) h)

theorem address_plain {c : Char} (hc : c = '/' ∨ c = '@') : c ∉ l.address := by
  have hhost : c ∉ (l.host.getD "").toList := by
    cases hl : l.host with
    | none => simp
    | some host =>
      obtain ⟨hslash, hat⟩ := l.host_plain host hl
      rcases hc with rfl | rfl <;> assumption
  have hport : c ∉ l.port.elim [] fun p => ':' :: Nat.toDigits 10 p.toNat := by
    cases l.port with
    | none => simp
    | some port =>
      refine List.not_mem_cons_of_ne_of_not_mem ?_ (not_mem_toDigits ?_ _)
      · rcases hc with rfl | rfl <;> decide
      · rcases hc with rfl | rfl <;> decide
  exact List.not_mem_append hhost hport

theorem slash_not_mem_authority : '/' ∉ l.authority := by
  refine List.not_mem_append ?_ (l.address_plain (.inl rfl))
  cases l.credentials with
  | none => simp
  | some c => simp [c.slash_not_mem]

theorem cutDatabase_authority :
    cutDatabase (l.authority ++ l.database.elim [] ('/' :: ·.toList)) =
      (l.authority, l.database.elim [] (·.toList)) := by
  cases l.database with
  | none => exact (List.append_nil _).symm ▸ cutDatabase_of_not_mem l.slash_not_mem_authority
  | some database => exact cutDatabase_append l.slash_not_mem_authority database.toList

theorem cutCredentials_authority :
    cutCredentials l.authority = (l.credentials.map fun c => (c.user, c.password), l.address) := by
  have hat : '@' ∉ l.address := l.address_plain (.inr rfl)
  unfold authority
  cases l.credentials with
  | none => exact cutCredentials_of_not_mem hat
  | some c =>
    have hcut := cutCredentials_append c.text.toList hat
    rw [readCredentials_text] at hcut
    simpa using hcut

theorem readAddress_address : readAddress l.address = .ok (l.config.host, l.config.port) := by
  have named : (if (l.host.getD "").toList.isEmpty then ({} : Config).host
      else String.ofList (l.host.getD "").toList) = l.config.host := by
    cases hl : l.host with
    | none => simp [config, hl]
    | some host => simp [config, hl, l.host_ne host hl]
  rw [readAddress, address]
  cases hport : l.port with
  | none =>
    have hcolon : ':' ∉ (l.host.getD "").toList := by
      cases hl : l.host with
      | none => simp
      | some host => exact l.host_alone hport host hl
    simp only [Option.elim, List.append_nil, splitLast?_eq_none hcolon]
    rw [named]
    simp [config, hport]
  | some port =>
    have hread : readPort (String.ofList (Nat.toDigits 10 port.toNat)) = .ok port := by
      rw [readPort_eq_ok_iff, String.toList_ofList]
      exact (portDigits_toDigits port).isPort
    have hcolon : ':' ∉ Nat.toDigits 10 port.toNat := not_mem_toDigits (by decide) _
    simp only [Option.elim, splitLast?_append _ hcolon, hread]
    rw [named]
    simp [config, hport, Except.map]

theorem ofUrl_text : ofUrl l.text = .ok l.config := by
  rw [ofUrl_eq l.text_toList, l.cutDatabase_authority, l.cutCredentials_authority,
    l.readAddress_address]
  have hdatabase : (if (l.database.elim [] (·.toList)).isEmpty then none
      else some (String.ofList (l.database.elim [] (·.toList)))) = l.database := by
    cases hl : l.database with
    | none => rfl
    | some database => simp [l.database_ne database hl]
  have huser : (l.credentials.map fun c => (c.user, c.password)).map (·.1) =
      l.credentials.map (·.user) := Option.map_map ..
  have hpassword : (l.credentials.map fun c => (c.user, c.password)).bind (·.2) =
      l.credentials.bind (·.password) := Option.bind_map ..
  refine congrArg Except.ok ?_
  rw [hdatabase, huser, hpassword]
  rfl

end Locator

/-- **Reading a URL inverts writing it, and knows two failures.** What a locator names is
what is read from its URL. A URL is refused if it lacks the scheme, or if what follows the
last colon of its host part is not a port, and for nothing else; the error tells which. -/
theorem Config.ofUrl_inverts : (∀ l : Locator, ofUrl l.text = .ok l.config) ∧
    ∀ url e, ofUrl url = .error e ↔ ∃ what, e = .config what ∧ Refused url what :=
  ⟨Locator.ofUrl_text, fun _ _ => ofUrl_eq_error_iff⟩

/-- Separators stand in each part that may have them, and the last of two colons decides. -/
theorem Config.ofUrl_inverts_separators :
    let l : Locator := ⟨some ⟨"a@b", some "c:d@e", by decide, by decide⟩, some "::1", some 80,
      some "f/g", by decide, by decide, by decide, by decide⟩
    l.text = "nowdb://a@b:c:d@e@::1:80/f/g" ∧
      ofUrl "nowdb://a@b:c:d@e@::1:80/f/g" = .ok
        ⟨"libnowdbclient.so", "::1", 80, some "a@b", some "c:d@e", some "f/g", .binary⟩ ∧
      ofUrl "nowdb://a:b@h:8o" = .error (.config (.port "8o")) := by
  intro l
  have htext : l.text = "nowdb://a@b:c:d@e@::1:80/f/g" := by decide +kernel
  have hpart : HostPart "a:b@h:8o".toList ("h".toList ++ ':' :: "8o".toList) :=
    @HostPart.cut "a:b@".toList "h:8o".toList [] (.inr ⟨"a:b".toList, by decide⟩) (.inl rfl)
      (by decide) (by decide) (by decide)
  have hport : readPort "8o" = .error (.config (.port "8o")) := by decide +kernel
  have refused : Refused "nowdb://a:b@h:8o" (.port "8o") :=
    .port (by decide) hpart (by decide) (readPort_eq_error_iff.mp hport).2
  exact ⟨htext, htext ▸ ofUrl_inverts.1 l, (ofUrl_inverts.2 _ _).mpr ⟨_, rfl, refused⟩⟩

end Querent
