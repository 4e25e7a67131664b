import Querent.Config.Json
import Querent.Proofs.Config.Ports
import Querent.Proofs.Json.Documents

/-!
# Configurations and their documents

An object holds some fields of a configuration if their names stand in it, each once and
with the value of the field, in any order and with members of other names between. Every
document of such an object, whatever its blanks and escapes, is read as the configuration in
these fields, with the defaults in all others. The printed configuration holds all fields.
-/

namespace Querent.Config

open Json

/-! ## Fields -/

inductive Field where
  | library
  | host
  | port
  | user
  | password
  | database
  | encoding
  deriving DecidableEq

namespace Field

def name : Field → String
  | library => "library"
  | host => "host"
  | port => "port"
  | user => "user"
  | password => "password"
  | database => "database"
  | encoding => "encoding"

def all : List Field := [library, host, port, user, password, database, encoding]

theorem name_injective : Function.Injective name := by
  intro f g
  cases f <;> cases g <;> decide

theorem name_mem (f : Field) : f.name ∈ fieldNames := by
  cases f <;> decide

end Field

/-- What is written for a field. -/
def field (c : Config) : Field → Json
  | .library => .string c.library
  | .host => .string c.host
  | .port => .ofNat c.port.toNat
  | .user => optionalJson c.user
  | .password => optionalJson c.password
  | .database => optionalJson c.database
  | .encoding => .string c.encoding.name

/-- The configuration in some of its fields, and the defaults in all others. -/
def only (c : Config) (fields : List Field) : Config :=
  let d : Config := {}
  { library := if .library ∈ fields then c.library else d.library
    host := if .host ∈ fields then c.host else d.host
    port := if .port ∈ fields then c.port else d.port
    user := if .user ∈ fields then c.user else d.user
    password := if .password ∈ fields then c.password else d.password
    database := if .database ∈ fields then c.database else d.database
    encoding := if .encoding ∈ fields then c.encoding else d.encoding }

/-- Members that hold the fields, each once, among members of other names. -/
inductive Holds (c : Config) : List Field → List (String × Json) → Prop
  | nil : Holds c [] []
  | field {f : Field} {fields : List Field} {members : List (String × Json)} : f ∉ fields →
    Holds c fields members → Holds c (f :: fields) ((f.name, c.field f) :: members)
  | other {name : String} {j : Json} {fields : List Field} {members : List (String × Json)} :
    name ∉ fieldNames → Holds c fields members → Holds c fields ((name, j) :: members)

variable {c : Config} {fields done : List Field} {members : List (String × Json)}

theorem toJson_eq (c : Config) : c.toJson = .object (Field.all.map fun f => (f.name, c.field f)) :=
  rfl

theorem only_all (c : Config) : c.only Field.all = c := rfl

theorem only_congr {fields' : List Field} (h : ∀ f, f ∈ fields ↔ f ∈ fields') :
    c.only fields = c.only fields' := by
  simp only [only, h]

/-! ## One field -/

theorem readOptional?_optionalJson (s : Option String) :
    readOptional? (optionalJson s) = some s := by
  cases s <;> rfl

theorem readPortNumber?_ofNat (port : UInt16) :
    readPortNumber? (.ofNat port.toNat) = some port := by
  have hdigits : Decimal.nat? (toString port.toNat).toList = some port.toNat := by
    simpa using portDigits_iff.mp (portDigits_toDigits port)
  rw [Json.ofNat, readPortNumber?, hdigits]
  exact ofNat_eq_port_iff.mpr rfl

theorem readEncoding?_name (e : Encoding) : readEncoding? (.string e.name) = some e := by
  cases e <;> decide

theorem setField?_only (c : Config) (fields : List Field) (f : Field) :
    (c.only fields).setField? f.name (c.field f) = some (c.only (f :: fields)) := by
  cases f <;>
    simp [Field.name, setField?, field, only, readText?, readOptional?_optionalJson,
      readPortNumber?_ofNat, readEncoding?_name]

/-! ## All members -/

theorem setFields?_of_holds (h : Holds c fields members) (hdone : ∀ f ∈ fields, f ∉ done) :
    (c.only done).setFields? (done.map Field.name) members = some (c.only (fields ++ done)) := by
  induction h generalizing done with
  | nil => rfl
  | @field f fields members hf _ ih =>
    have hseen : f.name ∉ done.map Field.name := by
      rw [List.mem_map_of_injective Field.name_injective]
      exact hdone f List.mem_cons_self
    rw [setFields?, if_pos f.name_mem, if_neg hseen, setField?_only]
    have hdone' : ∀ g ∈ fields, g ∉ f :: done := by
      intro g hg hmem
      rcases List.mem_cons.mp hmem with rfl | hmem
      · exact hf hg
      · exact hdone g (List.mem_cons_of_mem f hg) hmem
    refine (ih hdone').trans (congrArg some (only_congr fun g => ?_))
    simp [or_left_comm]
  | other hname _ ih =>
    rw [setFields?, if_neg hname]
    exact ih hdone

theorem readJson?_of_holds {text : String} (h : Holds c fields members)
    (htext : Document (.object members) text) : readJson? text = some (c.only fields) := by
  have hset : (c.only []).setFields? [] members = some (c.only (fields ++ [])) :=
    setFields?_of_holds h fun _ _ => List.not_mem_nil
  rw [List.append_nil] at hset
  rw [readJson?, read?_of_document htext]
  exact hset

/-! ## The printed configuration -/

theorem writes_field (c : Config) (f : Field) :
    Writes (.value (c.field f)) (chars (c.field f)) := by
  have optional (s : Option String) :
      Writes (.value (optionalJson s)) (chars (optionalJson s)) := by
    cases s with
    | none => exact .null
    | some s => exact writes_quoted s
  cases f with
  | port => exact writes_ofNat c.port.toNat
  | user => exact optional c.user
  | password => exact optional c.password
  | database => exact optional c.database
  | library => exact writes_quoted c.library
  | host => exact writes_quoted c.host
  | encoding => exact writes_quoted c.encoding.name

theorem holds_map (c : Config) {fields : List Field} (h : fields.Nodup) :
    Holds c fields (fields.map fun f => (f.name, c.field f)) := by
  induction fields with
  | nil => exact .nil
  | cons f fields ih =>
    obtain ⟨hf, hfields⟩ := List.nodup_cons.mp h
    exact .field hf (ih hfields)

theorem readJson?_printJson (c : Config) : readJson? c.printJson = some c := by
  have hholds : Holds c Field.all (Field.all.map fun f => (f.name, c.field f)) :=
    holds_map c (by decide)
  refine (readJson?_of_holds hholds ?_).trans (congrArg some (only_all c))
  rw [printJson, toJson_eq]
  refine document_print (List.cons_ne_nil _ _) fun m hm => ?_
  obtain ⟨f, -, rfl⟩ := List.mem_map.mp hm
  exact writes_field c f

/-- **Reading inverts writing, for every selection of fields.** A printed configuration is
read as itself. A document of an object that holds some of the fields, in any order and
among any other members, is read as the configuration that has these fields of `c` and the
defaults in all others. -/
theorem document_inverts (c : Config) : readJson? c.printJson = some c ∧
    ∀ fields members text, Holds c fields members → Document (.object members) text →
      readJson? text = some (c.only fields) :=
  ⟨readJson?_printJson c, fun _ _ _ => readJson?_of_holds⟩

/-- Fields out of order, an unknown one between, and escapes in a name and in a value. -/
theorem document_inverts_escaped :
    let c : Config := { host := "😀", port := 80 }
    let text := "\x7b \"port\":80, \"x\" : [-1.5e3],\"h\\u006fst\":\"\\ud83d\\ude00\"\x7d"
    let members := [("port", .ofNat 80), ("x", .array [.number "-1.5e3"]), ("host", .string "😀")]
    Holds c [.port, .host] members ∧ Document (.object members) text ∧
      readJson? text = some ⟨"libnowdbclient.so", "😀", 80, none, none, none, .binary⟩ := by
  intro c text members
  have empty : Blanks [] := List.forall_mem_nil _
  have space : Blanks [' '] := by simp [Blanks, isBlank]
  have hholds : Holds c [.port, .host] members :=
    @Holds.field c .port [.host] _ (by decide) (@Holds.other c "x" (.array [.number "-1.5e3"]) _ _
      (by decide) (@Holds.field c .host _ _ (by decide) .nil))
  have hx : Writes (.value (.number "-1.5e3")) ['-', '1', '.', '5', 'e', '3'] :=
    .number (@NumberText.mk ['-'] ['1'] ['.', '5'] ['e', '3'] (.inr rfl)
      (.digits (by simp [Digits]) (by decide)) (.digits (by simp [Digits]))
      (@ExponentText.digits 'e' [] ['3'] (.inl rfl) (.inl rfl) (by simp [Digits])))
  have plain (d : Char) (hd : 0x20 ≤ d.toNat ∧ d ≠ '"' ∧ d ≠ '\\') : PieceText (.char d) [d] :=
    .plain hd.1 hd.2.1 hd.2.2
  have hname : StringText (some "host") ("h".toList ++ ("\\u006f".toList ++ "st".toList)) :=
    .text (.cons (plain 'h' (by decide)) (.cons (@PieceText.word '0' '0' '6' 'f' 0x6F (by decide))
      (.cons (plain 's' (by decide)) (.cons (plain 't' (by decide)) .nil))))
      (.char 'h' (.words 'o' (.char 's' (.char 't' .nil))))
  have hhost : StringText (some "😀") ("\\ud83d".toList ++ "\\ude00".toList) :=
    .text (.cons (@PieceText.word 'd' '8' '3' 'd' 0xD83D (by decide))
      (.cons (@PieceText.word 'd' 'e' '0' '0' 0xDE00 (by decide)) .nil)) (.words '😀' .nil)
  have hmembers := Writes.members (.mk space (stringText_escape "port") empty)
    (padded_chars (writes_ofNat 80))
    (.members (.mk space (stringText_escape "x") space)
      (.padded space (.array (.element (.padded empty hx empty))) empty)
      (.member (.mk empty hname empty) (.padded empty (.string hhost) empty)))
  have htext : Document (.object members) text :=
    (congrArg (Writes (.padded (.object members))) (by decide)).mpr
      (.padded empty (.object hmembers) empty)
  exact ⟨hholds, htext, (document_inverts c).2 _ _ _ hholds htext⟩

end Querent.Config
