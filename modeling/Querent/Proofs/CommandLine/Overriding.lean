import Querent.CommandLine.Options
import Querent.Proofs.Config.Ports

/-!
# Options over the environment

Six settings can be given as options and as variables of the environment. Two environments
that differ only in variables whose settings are given as options should lead to the same
configuration. They do, with one exception: the variable for the port is read before any
option is looked at, so a text in it that is no port is an error, even if a port is given.
-/

namespace Querent

/-- The variable for the port is not set, or has the written form of a port. -/
def Environment.HasPort (env : Environment) : Prop :=
  ∀ text ∈ env "NOWDB_PORT", ∃ port, IsPort port text.toList

/-- The port that the environment leads to. -/
def Environment.port (env : Environment) : Except Error UInt16 :=
  match env "NOWDB_PORT" with
  | some text => readPort text
  | none => .ok ({} : Config).port

namespace Environment

variable {env env' : Environment}

theorem port_congr (h : env "NOWDB_PORT" = env' "NOWDB_PORT") : env.port = env'.port := by
  rw [port, port, h]

theorem hasPort_iff : env.HasPort ↔ ∃ port, env.port = .ok port := by
  rw [HasPort, port]
  cases env "NOWDB_PORT" with
  | none => simp
  | some text => simp [readPort_eq_ok_iff]

theorem port_of_not_hasPort (h : ¬ env.HasPort) :
    ∃ text ∈ env "NOWDB_PORT", env.port = .error (.config (.port text)) := by
  rw [HasPort] at h
  push Not at h
  obtain ⟨text, htext, hport⟩ := h
  refine ⟨text, htext, ?_⟩
  rw [port, Option.mem_def.mp htext]
  exact readPort_eq_error_iff.mpr ⟨rfl, hport⟩

end Environment

namespace CommandLine

/-- The variable of the environment for a setting. -/
def Setting.variableName? : Setting → Option String
  | .server => some "NOWDB_HOST"
  | .port => some "NOWDB_PORT"
  | .database => some "NOWDB_DATABASE"
  | .user => some "NOWDB_USER"
  | .password => some "NOWDB_PASSWORD"
  | .library => some "NOWDB_LIBRARY"
  | .query | .format => none

/-- No two settings share a variable. -/
theorem Setting.eq_of_variableName? {s s' : Setting} (h : s.variableName? = s'.variableName?)
    (hs : s.variableName?.isSome) : s = s' := by
  revert h hs
  cases s <;> cases s' <;> decide

namespace Options

/-- The setting is given as an option. -/
def gives (o : Options) : Setting → Bool
  | .server => o.server.isSome
  | .port => o.port.isSome
  | .database => o.database.isSome
  | .query => o.query.isSome
  | .user => o.user.isSome
  | .password => o.password.isSome
  | .library => o.library.isSome
  | .format => o.format.isSome

/-- The environments differ at most in variables whose settings are given as options. -/
def Overrides (o : Options) (env env' : Environment) : Prop :=
  ∀ name, env name ≠ env' name → ∃ s, o.gives s ∧ s.variableName? = some name

/-- The configuration has the settings that are given as options. -/
structure Governs (o : Options) (c : Config) : Prop where
  host : ∀ v ∈ o.server, c.host = v
  port : ∀ v ∈ o.port, c.port = v
  library : ∀ v ∈ o.library, c.library = v
  user : ∀ v ∈ o.user, c.user = some v
  password : ∀ v ∈ o.password, c.password = some v
  database : ∀ v ∈ o.database, c.database = some v

/-- The options over what the environment has, where this is its port. -/
def combined (o : Options) (env : Environment) (port : UInt16) : Config where
  library := o.library.getD ((env "NOWDB_LIBRARY").getD ({} : Config).library)
  host := o.server.getD ((env "NOWDB_HOST").getD ({} : Config).host)
  port := o.port.getD port
  user := o.user.or (env "NOWDB_USER")
  password := o.password.or (env "NOWDB_PASSWORD")
  database := o.database.or (env "NOWDB_DATABASE")

variable {o : Options} {env env' : Environment}

/-- The environment is read as a whole, and fails only by its port. -/
theorem config_eq (o : Options) (env : Environment) :
    o.config env = env.port.map (o.combined env) := by
  rw [config, Config.ofEnvironment, Environment.port]
  cases env "NOWDB_PORT" with
  | none => rfl
  | some text =>
    dsimp only
    cases Querent.readPort text <;> rfl

theorem config_of_port {port : UInt16} (h : env.port = .ok port) :
    o.config env = .ok (o.combined env port) := by
  rw [config_eq, h]
  rfl

theorem config_of_not_hasPort (h : ¬ env.HasPort) :
    ∃ text ∈ env "NOWDB_PORT", o.config env = .error (.config (.port text)) := by
  obtain ⟨text, htext, hport⟩ := Environment.port_of_not_hasPort h
  refine ⟨text, htext, ?_⟩
  rw [config_eq, hport]
  rfl

theorem governs_combined (port : UInt16) : o.Governs (o.combined env port) := by
  constructor <;> rintro v hv <;> simp [combined, Option.mem_def.mp hv]

/-- Where the option is not given, the variable is the same. -/
theorem Overrides.eq_of_not_gives (h : o.Overrides env env') {s : Setting} {name : String}
    (hs : s.variableName? = some name) (hgives : o.gives s = false) : env name = env' name := by
  by_contra hne
  obtain ⟨s', hgives', hs'⟩ := h name hne
  obtain rfl := Setting.eq_of_variableName? (hs.trans hs'.symm) (by simp [hs])
  rw [hgives] at hgives'
  cases hgives'

/-- What an option stands in front of counts only if it is not given. -/
theorem getD_congr {α : Type} {given : Option α} {a a' : α} (h : given.isSome = false → a = a') :
    given.getD a = given.getD a' := by
  cases given with
  | none => exact h rfl
  | some => rfl

@[inherit_doc getD_congr]
theorem or_congr {α : Type} {given a a' : Option α} (h : given.isSome = false → a = a') :
    given.or a = given.or a' := by
  cases given with
  | none => exact h rfl
  | some => rfl

/-- What is taken from one environment is taken from the other. -/
theorem Overrides.combined_eq (h : o.Overrides env env') {port port' : UInt16}
    (hport : o.port.isSome = false → port = port') :
    o.combined env port = o.combined env' port' := by
  have hlibrary := h.eq_of_not_gives (s := .library) rfl
  have hhost := h.eq_of_not_gives (s := .server) rfl
  have huser := h.eq_of_not_gives (s := .user) rfl
  have hpassword := h.eq_of_not_gives (s := .password) rfl
  have hdatabase := h.eq_of_not_gives (s := .database) rfl
  simp only [combined, Config.mk.injEq, and_true]
  refine ⟨getD_congr fun hnone => ?_, getD_congr fun hnone => ?_, getD_congr hport,
    or_congr huser, or_congr hpassword, or_congr hdatabase⟩
  · rw [hlibrary hnone]
  · rw [hhost hnone]

end Options

/-- **Options override all but a port that cannot be read.** Take options, and two
environments that differ at most in variables whose settings are given as options. They
lead to the same configuration, or to the same error, exactly if the variable for the port
has the same text in both, or has in each the written form of a port or is not set. So for
the host, the database, the user, the password and the library every text is overridden.
Where the port can be read there is a configuration, and it has what the options give;
where it cannot, that is the error, whatever port is given. -/
theorem options_override (o : Options) (env env' : Environment) (h : o.Overrides env env') :
    (o.config env = o.config env' ↔
      env "NOWDB_PORT" = env' "NOWDB_PORT" ∨ env.HasPort ∧ env'.HasPort) ∧
    (env.HasPort → ∃ c, o.config env = .ok c ∧ o.Governs c) ∧
    (¬ env.HasPort → ∃ text ∈ env "NOWDB_PORT", o.config env = .error (.config (.port text))) := by
  refine ⟨⟨fun heq => ?_, ?_⟩, ?_, Options.config_of_not_hasPort⟩
  · by_cases hport : env.HasPort <;> by_cases hport' : env'.HasPort
    · exact .inr ⟨hport, hport'⟩
    · obtain ⟨port, hok⟩ := Environment.hasPort_iff.mp hport
      obtain ⟨text, -, herror⟩ := Options.config_of_not_hasPort (o := o) hport'
      rw [Options.config_of_port hok, herror] at heq
      cases heq
    · obtain ⟨port, hok⟩ := Environment.hasPort_iff.mp hport'
      obtain ⟨text, -, herror⟩ := Options.config_of_not_hasPort (o := o) hport
      rw [Options.config_of_port hok, herror] at heq
      cases heq
    · -- each error shows the text of its environment
      obtain ⟨text, htext, herror⟩ := Options.config_of_not_hasPort (o := o) hport
      obtain ⟨text', htext', herror'⟩ := Options.config_of_not_hasPort (o := o) hport'
      rw [herror, herror'] at heq
      cases heq
      exact .inl (htext.trans htext'.symm)
  · rintro (hsame | ⟨hport, hport'⟩)
    · have hcombined : o.combined env = o.combined env' :=
        funext fun _ => h.combined_eq fun _ => rfl
      rw [Options.config_eq, Options.config_eq, Environment.port_congr hsame, hcombined]
    · obtain ⟨port, hok⟩ := Environment.hasPort_iff.mp hport
      obtain ⟨port', hok'⟩ := Environment.hasPort_iff.mp hport'
      rw [Options.config_of_port hok, Options.config_of_port hok']
      refine congrArg Except.ok (h.combined_eq fun hnone => ?_)
      -- without an option for the port the environments have the same one
      have hsame := h.eq_of_not_gives (s := .port) rfl hnone
      rw [Environment.port_congr hsame, hok'] at hok
      exact (Except.ok.inj hok).symm
  · intro hport
    obtain ⟨port, hok⟩ := Environment.hasPort_iff.mp hport
    exact ⟨_, Options.config_of_port hok, Options.governs_combined port⟩

/-- All that can be overridden is given; one environment has texts that are of no use, but
a port, and the other has nothing. -/
theorem options_override_given :
    let o : Options := { server := some "db", port := some 50000, user := some "alice" }
    let env : Environment := fun name =>
      if name = "NOWDB_HOST" then some "" else if name = "NOWDB_USER" then some "\x00"
      else if name = "NOWDB_PORT" then some " +080 " else none
    o.Overrides env (fun _ => none) ∧
      o.config env = o.config (fun _ => none) ∧
      ∃ c, o.config env = .ok c ∧ c.host = "db" ∧ c.port = 50000 ∧ c.user = some "alice" := by
  intro o env
  have overrides : o.Overrides env fun _ => none := by
    intro name hne
    by_cases hhost : name = "NOWDB_HOST"
    · exact ⟨.server, rfl, by rw [hhost]; rfl⟩
    · by_cases huser : name = "NOWDB_USER"
      · exact ⟨.user, rfl, by rw [huser]; rfl⟩
      · by_cases hport : name = "NOWDB_PORT"
        · exact ⟨.port, rfl, by rw [hport]; rfl⟩
        · exact absurd (by simp [env, hhost, huser, hport]) hne
  have hasPort : env.HasPort := Environment.hasPort_iff.mpr ⟨80, by decide +kernel⟩
  obtain ⟨same, governed, -⟩ := options_override o env (fun _ => none) overrides
  refine ⟨overrides, same.mpr (.inr ⟨hasPort, ?_⟩), ?_⟩
  · rintro text ⟨⟩
  · obtain ⟨c, hc, governs⟩ := governed hasPort
    exact ⟨c, hc, governs.host _ rfl, governs.port _ rfl, governs.user _ rfl⟩

/-- A port is given, and the environments differ only in the variable for it. -/
theorem unreadable_port_not_overridden :
    let o : Options := { port := some 50000 }
    let env : Environment := fun name => if name = "NOWDB_PORT" then some "x" else none
    (∀ name, name ≠ "NOWDB_PORT" → env name = none) ∧
      o.config env = .error (.config (.port "x")) ∧
      o.config (fun _ => none) = .ok { port := 50000 } := by
  intro o env
  exact ⟨fun name hne => if_neg hne, by rfl, by rfl⟩

end CommandLine

end Querent
