/-
# Fallbacks for strings

The conventional variables of the Sentry, OpenTelemetry and database plugins fill string fields.
Their text goes through `figment`'s guess at what it means (`parseValue`) before it is deserialized
as a string, and the guess does not know that a string is wanted: a release `1234567` is a number,
which is not a string, and the plugin does not build.

`string_fallbacks_exact_iff` says when the fields hold the variables' exact texts: when the guess
takes each text for itself.
-/
import Muxa.Core.Fallbacks

namespace Muxa.Core

open Lib.Text

/-! ## 1. Deserializing

`invalid` makes `serde`'s error out of a value and what was expected instead. -/

section Readers

variable {E A : Type} (invalid : Value → Str → E)

/-- `String`; a character is a string of one. -/
def readString : Value → Except E Str
  | .leaf (.string text) => .ok text
  | .leaf (.char ch) => .ok [ch]
  | value => .error (invalid value "a string".toList)

def readOption (read : Value → Except E A) : Value → Except E (Option A)
  | .leaf .empty => .ok none
  | value => (read value).map some

def readBool : Value → Except E Bool
  | .leaf (.bool value) => .ok value
  | value => .error (invalid value "a boolean".toList)

/-- `u32` and `u64`. -/
def readUnsigned (name : String) (size : Nat) : Value → Except E Nat
  | .leaf (.int n) =>
    if 0 ≤ n ∧ n < size then .ok n.toNat
    else .error (invalid (.leaf (.int n)) name.toList)
  | value => .error (invalid value name.toList)

/-- `f32`, kept as the number that it is read from.  `serde` reads it from an `i64` or a `u64`, but
from no wider integer. -/
def readF32 : Value → Except E Scalar
  | .leaf (.int n) =>
    if -0x8000000000000000 ≤ n ∧ n < 0x10000000000000000 then .ok (.int n)
    else .error (invalid (.leaf (.int n)) "f32".toList)
  | .leaf (.float text) => .ok (.float text)
  | value => .error (invalid value "f32".toList)

def readMap (read : Value → Except E A) : Value → Except E (List (Str × A))
  | .table entries => entries.mapM fun e => (read e.2).map fun a => (e.1, a)
  | value => .error (invalid value "a map".toList)

/-- A field of a `#[serde(default)]` struct, read from the keys of a table. -/
def field (look : Str → Option Value) (key : String) (read : Value → Except E A) (default : A) :
    Except E A :=
  match look key.toList with
  | some value => read value
  | none => .ok default

end Readers

/-! ## 2. The configuration types -/

structure SentryConfig where
  dsn : Option Str := none
  environment : Option Str := none
  release : Option Str := none
  tracesSampleRate : Option Scalar := none
  transactionSampleRates : List (Str × Scalar) := []
  attachStacktrace : Bool := true
  sendDefaultPii : Bool := false
  httpTransactions : Bool := true
  logs : Bool := true

structure OtelConfig where
  serviceName : Str := "muxa-app".toList
  endpoint : Option Str := none
  timeoutSecs : Nat := 10
  metricIntervalSecs : Nat := 60

/-- `SqlxConfig`, on a host with this pool size. -/
structure SqlxConfig where
  url : Str := []
  maxConnections : Nat
  minConnections : Nat := 0

/-- `DieselConfig`, on a host with this pool size. -/
structure DieselConfig where
  url : Str := []
  maxConnections : Nat
  acquireTimeoutSecs : Nat := 30

section Configs

variable {E : Type} (invalid : Value → Str → E) (dbPoolSize : Nat)

def SentryConfig.read (look : Str → Option Value) : Except E SentryConfig := do
  let default : SentryConfig := {}
  let dsn ← field look "dsn" (readOption (readString invalid)) default.dsn
  let environment ← field look "environment" (readOption (readString invalid)) default.environment
  let release ← field look "release" (readOption (readString invalid)) default.release
  let tracesSampleRate ←
    field look "traces_sample_rate" (readOption (readF32 invalid)) default.tracesSampleRate
  let transactionSampleRates ←
    field look "transaction_sample_rates" (readMap invalid (readF32 invalid))
      default.transactionSampleRates
  let attachStacktrace ←
    field look "attach_stacktrace" (readBool invalid) default.attachStacktrace
  let sendDefaultPii ← field look "send_default_pii" (readBool invalid) default.sendDefaultPii
  let httpTransactions ←
    field look "http_transactions" (readBool invalid) default.httpTransactions
  let logs ← field look "logs" (readBool invalid) default.logs
  return { dsn, environment, release, tracesSampleRate, transactionSampleRates, attachStacktrace,
           sendDefaultPii, httpTransactions, logs }

def OtelConfig.read (look : Str → Option Value) : Except E OtelConfig := do
  let default : OtelConfig := {}
  let serviceName ← field look "service_name" (readString invalid) default.serviceName
  let endpoint ← field look "endpoint" (readOption (readString invalid)) default.endpoint
  let timeoutSecs ←
    field look "timeout_secs" (readUnsigned invalid "u64" UInt64.size) default.timeoutSecs
  let metricIntervalSecs ←
    field look "metric_interval_secs" (readUnsigned invalid "u64" UInt64.size)
      default.metricIntervalSecs
  return { serviceName, endpoint, timeoutSecs, metricIntervalSecs }

def SqlxConfig.read (look : Str → Option Value) : Except E SqlxConfig := do
  let default : SqlxConfig := { maxConnections := dbPoolSize }
  let url ← field look "url" (readString invalid) default.url
  let maxConnections ←
    field look "max_connections" (readUnsigned invalid "u32" UInt32.size) default.maxConnections
  let minConnections ←
    field look "min_connections" (readUnsigned invalid "u32" UInt32.size) default.minConnections
  return { url, maxConnections, minConnections }

def DieselConfig.read (look : Str → Option Value) : Except E DieselConfig := do
  let default : DieselConfig := { maxConnections := dbPoolSize }
  let url ← field look "url" (readString invalid) default.url
  let maxConnections ←
    field look "max_connections" (readUnsigned invalid "u32" UInt32.size) default.maxConnections
  let acquireTimeoutSecs ←
    field look "acquire_timeout_secs" (readUnsigned invalid "u64" UInt64.size)
      default.acquireTimeoutSecs
  return { url, maxConnections, acquireTimeoutSecs }

end Configs

/-! ## 3. The sections with string fallbacks -/

/-- A plugin's section whose fallbacks fill string fields: `CONFIG_PREFIX`, `ENV_FALLBACKS`, and
the `Config` type with its string fields by key. -/
structure StringSection (E : Type) where
  Config : Type
  configPrefix : Str
  envFallbacks : List EnvFallback
  default : Config
  read : (Str → Option Value) → Except E Config
  text : Str → Config → Option Str

/-- `ENV_FALLBACKS` of the plugins. -/
def sentryEnvFallbacks : List EnvFallback :=
  [{ var := "SENTRY_DSN".toList, key := "dsn".toList },
   { var := "SENTRY_ENVIRONMENT".toList, key := "environment".toList },
   { var := "SENTRY_RELEASE".toList, key := "release".toList }]

def otelEnvFallbacks : List EnvFallback :=
  [{ var := "OTEL_SERVICE_NAME".toList, key := "service_name".toList },
   { var := "OTEL_EXPORTER_OTLP_ENDPOINT".toList, key := "endpoint".toList }]

def sqlxEnvFallbacks : List EnvFallback :=
  [{ var := "DATABASE_URL".toList, key := "url".toList }]

def dieselEnvFallbacks : List EnvFallback :=
  [{ var := "DATABASE_URL".toList, key := "url".toList }]

section Sections

variable {E : Type} (invalid : Value → Str → E) (dbPoolSize : Nat)

def sentry : StringSection E where
  Config := SentryConfig
  configPrefix := "sentry".toList
  envFallbacks := sentryEnvFallbacks
  default := {}
  read := SentryConfig.read invalid
  text key cfg :=
    if key = "dsn".toList then cfg.dsn
    else if key = "environment".toList then cfg.environment
    else if key = "release".toList then cfg.release
    else none

def otel : StringSection E where
  Config := OtelConfig
  configPrefix := "otel".toList
  envFallbacks := otelEnvFallbacks
  default := {}
  read := OtelConfig.read invalid
  text key cfg :=
    if key = "service_name".toList then some cfg.serviceName
    else if key = "endpoint".toList then cfg.endpoint
    else none

def sqlx : StringSection E where
  Config := SqlxConfig
  configPrefix := "sqlx".toList
  envFallbacks := sqlxEnvFallbacks
  default := { maxConnections := dbPoolSize }
  read := SqlxConfig.read invalid dbPoolSize
  text key cfg := if key = "url".toList then some cfg.url else none

def diesel : StringSection E where
  Config := DieselConfig
  configPrefix := "diesel".toList
  envFallbacks := dieselEnvFallbacks
  default := { maxConnections := dbPoolSize }
  read := DieselConfig.read invalid dbPoolSize
  text key cfg := if key = "url".toList then some cfg.url else none

def stringSections : List (StringSection E) :=
  [sentry invalid, otel invalid, sqlx invalid dbPoolSize, diesel invalid dbPoolSize]

end Sections

/-! ## 4. What these sections have in common -/

def ReadsString (value : Value) (text : Str) : Prop :=
  value = .leaf (.string text) ∨ ∃ ch, text = [ch] ∧ value = .leaf (.char ch)

theorem readsString_unique {value : Value} {text text' : Str} (h : ReadsString value text)
    (h' : ReadsString value text') : text = text' := by
  rcases h with rfl | ⟨ch, rfl, rfl⟩ <;> rcases h' with h' | ⟨ch', rfl, h'⟩ <;> cases h' <;> rfl

/-- A table that differs from another one only by strings under keys of fallbacks. -/
def StringSection.Fills {E : Type} (plugin : StringSection E) (look look' : Str → Option Value) :
    Prop :=
  ∀ key, look' key = look key ∨ key ∈ plugin.envFallbacks.map EnvFallback.key ∧
    ∃ value text, look' key = some value ∧ ReadsString value text

/-- **What the sections share**: a plain name, one fallback for each key, every field with its
default, and under the keys of the fallbacks a string field, read from a string or left out. -/
structure StringSection.Lawful {E : Type} (plugin : StringSection E) : Prop where
  named : plugin.configPrefix ≠ []
  plain : '.' ∉ plugin.configPrefix
  keys : (plugin.envFallbacks.map EnvFallback.key).Nodup
  empty : plugin.read (fun _ => none) = .ok plugin.default
  holds : ∀ fallback ∈ plugin.envFallbacks, ∀ look cfg value, plugin.read look = .ok cfg →
    look fallback.key = some value →
      (∃ text, ReadsString value text ∧ plugin.text fallback.key cfg = some text) ∨
        value = .leaf .empty ∧ plugin.text fallback.key cfg = none
  fills : ∀ look look' cfg, plugin.read look = .ok cfg → plugin.Fills look look' →
    ∃ cfg', plugin.read look' = .ok cfg'

section Laws

variable {E A B : Type} {invalid : Value → Str → E}

theorem bind_eq_ok {x : Except E A} {k : A → Except E B} {b : B} :
    (x >>= k) = .ok b ↔ ∃ a, x = .ok a ∧ k a = .ok b := by
  cases x <;> simp [bind, Except.bind]

theorem readString_eq_ok {value : Value} {text : Str} :
    readString invalid value = .ok text ↔ ReadsString value text := by
  unfold readString ReadsString
  split <;> simp_all [eq_comm]

theorem readOption_eq_ok {value : Value} {read : Option Str}
    (h : readOption (readString invalid) value = .ok read) :
    (∃ text, ReadsString value text ∧ read = some text) ∨
      value = .leaf .empty ∧ read = none := by
  unfold readOption at h
  split at h
  · exact .inr ⟨rfl, (Except.ok.inj h).symm⟩
  · left
    cases hread : readString invalid value with
    | error err => simp [hread, Except.map] at h
    | ok text =>
      rw [hread] at h
      exact ⟨text, readString_eq_ok.mp hread, (Except.ok.inj h).symm⟩

theorem readOption_of_readsString {value : Value} {text : Str} (h : ReadsString value text) :
    readOption (readString invalid) value = .ok (some text) := by
  rcases h with rfl | ⟨ch, rfl, rfl⟩ <;> rfl

variable {look look' : Str → Option Value} {key : String} {read : Value → Except E A}
  {default a : A}

theorem field_some {value : Value} (h : field look key read default = .ok a)
    (hvalue : look key.toList = some value) : read value = .ok a := by
  rwa [field, hvalue] at h

theorem field_congr (h : look' key.toList = look key.toList) :
    field look' key read default = field look key read default := by
  rw [field, h, field]

/-- Keys that have no fallback are the same in both tables. -/
theorem StringSection.Fills.same {plugin : StringSection E} (h : plugin.Fills look look')
    (hkey : key.toList ∉ plugin.envFallbacks.map EnvFallback.key) :
    look' key.toList = look key.toList :=
  (h key.toList).resolve_right fun hfills => hkey hfills.1

theorem StringSection.Fills.field {plugin : StringSection E} (h : plugin.Fills look look')
    (hread : field look key read default = .ok a)
    (hstring : ∀ value text, ReadsString value text → ∃ b, read value = .ok b) :
    ∃ b, Core.field look' key read default = .ok b := by
  rcases h key.toList with heq | ⟨-, value, text, hvalue, hreads⟩
  · exact ⟨a, by rw [field_congr heq, hread]⟩
  · obtain ⟨b, hb⟩ := hstring value text hreads
    exact ⟨b, by rw [Core.field, hvalue]; exact hb⟩

/-- Reading the struct is reading its fields. -/
theorem SentryConfig.read_eq_ok {cfg : SentryConfig} : SentryConfig.read invalid look = .ok cfg ↔
    Core.field look "dsn" (readOption (readString invalid)) none = .ok cfg.dsn ∧
    Core.field look "environment" (readOption (readString invalid)) none = .ok cfg.environment ∧
    Core.field look "release" (readOption (readString invalid)) none = .ok cfg.release ∧
    Core.field look "traces_sample_rate" (readOption (readF32 invalid)) none =
      .ok cfg.tracesSampleRate ∧
    Core.field look "transaction_sample_rates" (readMap invalid (readF32 invalid)) [] =
      .ok cfg.transactionSampleRates ∧
    Core.field look "attach_stacktrace" (readBool invalid) true = .ok cfg.attachStacktrace ∧
    Core.field look "send_default_pii" (readBool invalid) false = .ok cfg.sendDefaultPii ∧
    Core.field look "http_transactions" (readBool invalid) true = .ok cfg.httpTransactions ∧
    Core.field look "logs" (readBool invalid) true = .ok cfg.logs := by
  simp only [SentryConfig.read, bind_eq_ok]
  constructor
  · rintro ⟨_, h₁, _, h₂, _, h₃, _, h₄, _, h₅, _, h₆, _, h₇, _, h₈, _, h₉, h⟩
    obtain rfl := Except.ok.inj h
    exact ⟨h₁, h₂, h₃, h₄, h₅, h₆, h₇, h₈, h₉⟩
  · rintro ⟨h₁, h₂, h₃, h₄, h₅, h₆, h₇, h₈, h₉⟩
    exact ⟨_, h₁, _, h₂, _, h₃, _, h₄, _, h₅, _, h₆, _, h₇, _, h₈, _, h₉, rfl⟩

theorem sentry_lawful : (sentry invalid).Lawful where
  named := show "sentry".toList ≠ [] by decide
  plain := show '.' ∉ "sentry".toList by decide
  keys := show (sentryEnvFallbacks.map EnvFallback.key).Nodup by decide
  empty := rfl
  holds := by
    intro fallback hmem look cfg value hread hvalue
    obtain ⟨hdsn, henvironment, hrelease, -⟩ := SentryConfig.read_eq_ok.mp hread
    simp only [sentry, sentryEnvFallbacks, List.mem_cons, List.not_mem_nil, or_false] at hmem
    rcases hmem with rfl | rfl | rfl
    · exact readOption_eq_ok (field_some hdsn hvalue)
    · exact readOption_eq_ok (field_some henvironment hvalue)
    · exact readOption_eq_ok (field_some hrelease hvalue)
  fills := by
    intro look look' cfg hread hfills
    have hsame : ∀ key : String, key.toList ∉ sentryEnvFallbacks.map EnvFallback.key →
        look' key.toList = look key.toList := fun _ hkey => hfills.same hkey
    have hstring : ∀ value text, ReadsString value text →
        ∃ b, readOption (readString invalid) value = .ok b :=
      fun _ _ h => ⟨_, readOption_of_readsString h⟩
    obtain ⟨hdsn, henvironment, hrelease, hrest⟩ := SentryConfig.read_eq_ok.mp hread
    obtain ⟨dsn, hdsn'⟩ := hfills.field hdsn hstring
    obtain ⟨environment, henvironment'⟩ := hfills.field henvironment hstring
    obtain ⟨release, hrelease'⟩ := hfills.field hrelease hstring
    refine ⟨{ cfg with dsn, environment, release },
      SentryConfig.read_eq_ok.mpr ⟨hdsn', henvironment', hrelease', ?_⟩⟩
    rwa [field_congr (hsame "traces_sample_rate" (by decide)),
      field_congr (hsame "transaction_sample_rates" (by decide)),
      field_congr (hsame "attach_stacktrace" (by decide)),
      field_congr (hsame "send_default_pii" (by decide)),
      field_congr (hsame "http_transactions" (by decide)), field_congr (hsame "logs" (by decide))]

theorem OtelConfig.read_eq_ok {cfg : OtelConfig} : OtelConfig.read invalid look = .ok cfg ↔
    Core.field look "service_name" (readString invalid) "muxa-app".toList = .ok cfg.serviceName ∧
    Core.field look "endpoint" (readOption (readString invalid)) none = .ok cfg.endpoint ∧
    Core.field look "timeout_secs" (readUnsigned invalid "u64" UInt64.size) 10 =
      .ok cfg.timeoutSecs ∧
    Core.field look "metric_interval_secs" (readUnsigned invalid "u64" UInt64.size) 60 =
      .ok cfg.metricIntervalSecs := by
  simp only [OtelConfig.read, bind_eq_ok]
  constructor
  · rintro ⟨_, h₁, _, h₂, _, h₃, _, h₄, h⟩
    obtain rfl := Except.ok.inj h
    exact ⟨h₁, h₂, h₃, h₄⟩
  · rintro ⟨h₁, h₂, h₃, h₄⟩
    exact ⟨_, h₁, _, h₂, _, h₃, _, h₄, rfl⟩

theorem otel_lawful : (otel invalid).Lawful where
  named := show "otel".toList ≠ [] by decide
  plain := show '.' ∉ "otel".toList by decide
  keys := show (otelEnvFallbacks.map EnvFallback.key).Nodup by decide
  empty := rfl
  holds := by
    intro fallback hmem look cfg value hread hvalue
    obtain ⟨hname, hendpoint, -⟩ := OtelConfig.read_eq_ok.mp hread
    simp only [otel, otelEnvFallbacks, List.mem_cons, List.not_mem_nil, or_false] at hmem
    rcases hmem with rfl | rfl
    · exact .inl ⟨_, readString_eq_ok.mp (field_some hname hvalue), rfl⟩
    · exact readOption_eq_ok (field_some hendpoint hvalue)
  fills := by
    intro look look' cfg hread hfills
    have hsame : ∀ key : String, key.toList ∉ otelEnvFallbacks.map EnvFallback.key →
        look' key.toList = look key.toList := fun _ hkey => hfills.same hkey
    obtain ⟨hname, hendpoint, hrest⟩ := OtelConfig.read_eq_ok.mp hread
    obtain ⟨serviceName, hname'⟩ :=
      hfills.field hname fun _ _ h => ⟨_, readString_eq_ok.mpr h⟩
    obtain ⟨endpoint, hendpoint'⟩ :=
      hfills.field hendpoint fun _ _ h => ⟨_, readOption_of_readsString h⟩
    refine ⟨{ cfg with serviceName, endpoint },
      OtelConfig.read_eq_ok.mpr ⟨hname', hendpoint', ?_⟩⟩
    rwa [field_congr (hsame "timeout_secs" (by decide)),
      field_congr (hsame "metric_interval_secs" (by decide))]

theorem SqlxConfig.read_eq_ok {dbPoolSize : Nat} {cfg : SqlxConfig} :
    SqlxConfig.read invalid dbPoolSize look = .ok cfg ↔
      Core.field look "url" (readString invalid) [] = .ok cfg.url ∧
      Core.field look "max_connections" (readUnsigned invalid "u32" UInt32.size) dbPoolSize =
        .ok cfg.maxConnections ∧
      Core.field look "min_connections" (readUnsigned invalid "u32" UInt32.size) 0 =
        .ok cfg.minConnections := by
  simp only [SqlxConfig.read, bind_eq_ok]
  constructor
  · rintro ⟨_, h₁, _, h₂, _, h₃, h⟩
    obtain rfl := Except.ok.inj h
    exact ⟨h₁, h₂, h₃⟩
  · rintro ⟨h₁, h₂, h₃⟩
    exact ⟨_, h₁, _, h₂, _, h₃, rfl⟩

theorem sqlx_lawful (dbPoolSize : Nat) : (sqlx invalid dbPoolSize).Lawful where
  named := show "sqlx".toList ≠ [] by decide
  plain := show '.' ∉ "sqlx".toList by decide
  keys := show (sqlxEnvFallbacks.map EnvFallback.key).Nodup by decide
  empty := rfl
  holds := by
    intro fallback hmem look cfg value hread hvalue
    obtain ⟨hurl, -⟩ := SqlxConfig.read_eq_ok.mp hread
    obtain rfl := List.mem_singleton.mp hmem
    exact .inl ⟨_, readString_eq_ok.mp (field_some hurl hvalue), rfl⟩
  fills := by
    intro look look' cfg hread hfills
    have hsame : ∀ key : String, key.toList ∉ sqlxEnvFallbacks.map EnvFallback.key →
        look' key.toList = look key.toList := fun _ hkey => hfills.same hkey
    obtain ⟨hurl, hrest⟩ := SqlxConfig.read_eq_ok.mp hread
    obtain ⟨url, hurl'⟩ := hfills.field hurl fun _ _ h => ⟨_, readString_eq_ok.mpr h⟩
    refine ⟨{ cfg with url }, SqlxConfig.read_eq_ok.mpr ⟨hurl', ?_⟩⟩
    rwa [field_congr (hsame "max_connections" (by decide)),
      field_congr (hsame "min_connections" (by decide))]

theorem DieselConfig.read_eq_ok {dbPoolSize : Nat} {cfg : DieselConfig} :
    DieselConfig.read invalid dbPoolSize look = .ok cfg ↔
      Core.field look "url" (readString invalid) [] = .ok cfg.url ∧
      Core.field look "max_connections" (readUnsigned invalid "u32" UInt32.size) dbPoolSize =
        .ok cfg.maxConnections ∧
      Core.field look "acquire_timeout_secs" (readUnsigned invalid "u64" UInt64.size) 30 =
        .ok cfg.acquireTimeoutSecs := by
  simp only [DieselConfig.read, bind_eq_ok]
  constructor
  · rintro ⟨_, h₁, _, h₂, _, h₃, h⟩
    obtain rfl := Except.ok.inj h
    exact ⟨h₁, h₂, h₃⟩
  · rintro ⟨h₁, h₂, h₃⟩
    exact ⟨_, h₁, _, h₂, _, h₃, rfl⟩

theorem diesel_lawful (dbPoolSize : Nat) : (diesel invalid dbPoolSize).Lawful where
  named := show "diesel".toList ≠ [] by decide
  plain := show '.' ∉ "diesel".toList by decide
  keys := show (dieselEnvFallbacks.map EnvFallback.key).Nodup by decide
  empty := rfl
  holds := by
    intro fallback hmem look cfg value hread hvalue
    obtain ⟨hurl, -⟩ := DieselConfig.read_eq_ok.mp hread
    obtain rfl := List.mem_singleton.mp hmem
    exact .inl ⟨_, readString_eq_ok.mp (field_some hurl hvalue), rfl⟩
  fills := by
    intro look look' cfg hread hfills
    have hsame : ∀ key : String, key.toList ∉ dieselEnvFallbacks.map EnvFallback.key →
        look' key.toList = look key.toList := fun _ hkey => hfills.same hkey
    obtain ⟨hurl, hrest⟩ := DieselConfig.read_eq_ok.mp hread
    obtain ⟨url, hurl'⟩ := hfills.field hurl fun _ _ h => ⟨_, readString_eq_ok.mpr h⟩
    refine ⟨{ cfg with url }, DieselConfig.read_eq_ok.mpr ⟨hurl', ?_⟩⟩
    rwa [field_congr (hsame "max_connections" (by decide)),
      field_congr (hsame "acquire_timeout_secs" (by decide))]

/-- **Every section with fallbacks for strings is of this kind.** -/
theorem stringSections_lawful {dbPoolSize : Nat} {plugin : StringSection E}
    (h : plugin ∈ stringSections invalid dbPoolSize) : plugin.Lawful := by
  simp only [stringSections, List.mem_cons, List.not_mem_nil, or_false] at h
  rcases h with rfl | rfl | rfl | rfl
  · exact sentry_lawful
  · exact otel_lawful
  · exact sqlx_lawful dbPoolSize
  · exact diesel_lawful dbPoolSize

end Laws

/-! ## 5. One fallback for each key -/

section Keys

variable (parse : Str → Value) (env : Str → Option Str)

theorem filterMap_valueFor {fallbacks : List EnvFallback}
    (hkeys : (fallbacks.map EnvFallback.key).Nodup) (key : Str) :
    fallbacks.filterMap (EnvFallback.valueFor parse env key) =
      (firstSet parse env fallbacks key).toList := by
  induction fallbacks with
  | nil => rfl
  | cons fallback rest ih =>
    obtain ⟨hnew, hrest⟩ := List.nodup_cons.mp hkeys
    rw [List.filterMap_cons, firstSet, List.findSome?_cons]
    cases hvalue : EnvFallback.valueFor parse env key fallback with
    | none => exact ih hrest
    | some value =>
      have hkey := (valueFor_eq_some.mp hvalue).1
      have hnone : rest.filterMap (EnvFallback.valueFor parse env key) = [] := by
        refine List.filterMap_eq_nil_iff.mpr fun other hother => ?_
        refine if_neg fun heq => hnew ?_
        rw [hkey, ← heq]
        exact List.mem_map_of_mem hother
      rw [hnone]
      rfl

/-- **A key of the section**, when no table is configured under the keys of the fallbacks: the
configured value, or that of the key's fallback. -/
theorem get_filled {fallbacks : List EnvFallback}
    (hkeys : (fallbacks.map EnvFallback.key).Nodup) (sectionName : Str)
    {configured : Option Value} (h : ∀ value ∈ configured, value.isTable = true)
    (hleaves : ∀ fallback ∈ fallbacks, ∀ value ∈ configured, ∀ v ∈ value.get fallback.key,
      v.isTable = false) (key : Str) :
    ((Lib.Tree.joinAll configured ((setFallbacks env sectionName fallbacks).map
        (FallbackValue.table parse))).bind fun value => value.get key) =
      (configured.bind fun value => value.get key).or (firstSet parse env fallbacks key) := by
  rw [get_sections parse env fallbacks sectionName h, filterMap_valueFor parse env hkeys]
  cases hfirst : firstSet parse env fallbacks key with
  | none => rw [Option.or_none]; rfl
  | some v =>
    obtain ⟨fallback, hmem, hvalue⟩ := List.exists_of_findSome?_eq_some hfirst
    obtain rfl := (valueFor_eq_some.mp hvalue).1
    cases hget : configured.bind fun value => value.get fallback.key with
    | none => rfl
    | some x =>
      obtain ⟨value, hvalue, hx⟩ := Option.bind_eq_some_iff.mp hget
      exact Lib.Tree.joinAll_of_not_table (hleaves fallback hmem value hvalue x hx) _

end Keys

/-! ## 6. The text of the variable -/

section Exact

variable {F D E : Type} {c : FigmentCrate F D Value E} {plugin : StringSection E}
  {deserialize : Value → Except E plugin.Config}

/-- The deserializer reads a table by its keys. -/
def Deserializes (plugin : StringSection E) (deserialize : Value → Except E plugin.Config) : Prop :=
  ∀ value, value.isTable = true → deserialize value = plugin.read value.get

/-- The configured section is absent, or a table that deserializes. -/
def ConfiguredWell (deserialize : Value → Except E plugin.Config) (root : Value) : Prop :=
  ∀ value ∈ findPath root plugin.configPrefix,
    value.isTable = true ∧ ∃ cfg, deserialize value = .ok cfg

/-- The fallback is set, and its key left unset. -/
structure FillsKey (plugin : StringSection E) (env : Str → Option Str) (root : Value)
    (fallback : EnvFallback) (raw : Str) : Prop where
  mem : fallback ∈ plugin.envFallbacks
  set : fallback.text env = some raw
  unset : LeavesUnset root plugin.configPrefix fallback.key

/-- Every such key's field holds the text of the variable. -/
def HoldsTexts (plugin : StringSection E) (env : Str → Option Str) (root : Value)
    (cfg : plugin.Config) : Prop :=
  ∀ fallback raw, FillsKey plugin env root fallback raw → plugin.text fallback.key cfg = some raw

/-- Every such text reads as the string of that very text. -/
def ReadAsThemselves (parse : Str → Value) (plugin : StringSection E) (env : Str → Option Str)
    (root : Value) : Prop :=
  ∀ fallback raw, FillsKey plugin env root fallback raw → ReadsString (parse raw) raw

/-- The keys of the section as configured, and with the fallbacks. -/
def configuredKey (plugin : StringSection E) (root : Value) (key : Str) : Option Value :=
  (findPath root plugin.configPrefix).bind fun value => value.get key

def filledKey (parse : Str → Value) (plugin : StringSection E) (env : Str → Option Str)
    (root : Value) (key : Str) : Option Value :=
  (configuredKey plugin root key).or (firstSet parse env plugin.envFallbacks key)

theorem read_configuredKey (hp : plugin.Lawful) (hde : Deserializes plugin deserialize)
    {root : Value} (hroot : ConfiguredWell deserialize root) :
    ∃ cfg, plugin.read (configuredKey plugin root) = .ok cfg := by
  cases hfind : findPath root plugin.configPrefix with
  | none =>
    have hkeys : configuredKey plugin root = fun _ => none := by
      funext key
      rw [configuredKey, hfind]
      rfl
    exact ⟨_, hkeys ▸ hp.empty⟩
  | some value =>
    have hkeys : configuredKey plugin root = value.get := by
      funext key
      rw [configuredKey, hfind]
      rfl
    obtain ⟨htable, cfg, hcfg⟩ := hroot value hfind
    exact ⟨cfg, by rw [hkeys, ← hde value htable, hcfg]⟩

/-- No table is configured under the key of a fallback: it would not read as a string. -/
theorem configured_not_table (hp : plugin.Lawful) (hde : Deserializes plugin deserialize)
    {root : Value} (hroot : ConfiguredWell deserialize root) :
    ∀ fallback ∈ plugin.envFallbacks, ∀ value ∈ findPath root plugin.configPrefix,
      ∀ v ∈ value.get fallback.key, v.isTable = false := by
  intro fallback hmem value hvalue v hv
  obtain ⟨htable, cfg, hcfg⟩ := hroot value hvalue
  rw [hde value htable] at hcfg
  rcases hp.holds fallback hmem value.get cfg v hcfg hv with
    ⟨text, rfl | ⟨ch, -, rfl⟩, -⟩ | ⟨rfl, -⟩ <;> rfl

/-- **`get_or_env` reads the filled keys.** -/
theorem getOrEnv_eq_read (hc : c.Layered) (hp : plugin.Lawful)
    (hde : Deserializes plugin deserialize) (env : Str → Option Str) {figment : F} {root : Value}
    (htree : c.tree figment = .ok root) (hroot : ConfiguredWell deserialize root)
    (cfg : plugin.Config) :
    getOrEnv c deserialize plugin.default env figment plugin.configPrefix plugin.envFallbacks =
        .ok cfg ↔
      plugin.read (filledKey c.parseValue plugin env root) = .ok cfg := by
  have hread := sectionRead_of_no_dot c.parseValue env plugin.envFallbacks
    (hc.tree_table figment root htree) hp.named hp.plain
  have hkeys := get_filled c.parseValue env hp.keys plugin.configPrefix
    (fun value hvalue => (hroot value hvalue).1) (configured_not_table hp hde hroot)
  have htable := Lib.Tree.joinAll_isTable _
    (@isTable_tables c.parseValue env plugin.configPrefix plugin.envFallbacks)
    (fun value hvalue => (hroot value hvalue).1)
  rw [← hread] at hkeys htable
  have hmeets := getOrEnv_reads deserialize plugin.default hc env htree hp.named
    plugin.envFallbacks
  cases hfound : sectionRead c.parseValue env root plugin.configPrefix plugin.envFallbacks with
  | none =>
    rw [hfound] at hmeets hkeys
    have hnone : filledKey c.parseValue plugin env root = fun _ => none :=
      funext fun key => (hkeys key).symm
    rw [show getOrEnv _ _ _ _ _ _ _ = _ from hmeets, hnone, hp.empty, Except.ok.injEq,
      Except.ok.injEq]
  | some value =>
    rw [hfound] at hmeets hkeys
    have hget : filledKey c.parseValue plugin env root = value.get :=
      funext fun key => (hkeys key).symm
    rw [hget, ← hde value (htable value hfound)]
    simp only [readAs] at hmeets
    cases hcfg : deserialize value with
    | ok t =>
      rw [hcfg] at hmeets
      rw [show getOrEnv _ _ _ _ _ _ _ = _ from hmeets, Except.ok.injEq, Except.ok.injEq]
    | error err =>
      rw [hcfg] at hmeets
      constructor
      · intro hok
        rw [hok] at hmeets
        exact hmeets.elim
      · intro hok
        cases hok

theorem leavesUnset_iff {root : Value} (hroot : ConfiguredWell deserialize root) (key : Str) :
    LeavesUnset root plugin.configPrefix key ↔ configuredKey plugin root key = none := by
  unfold LeavesUnset configuredKey
  cases hfind : findPath root plugin.configPrefix with
  | none => simp
  | some value => simp [(hroot value hfind).1]

theorem filledKey_of_fillsKey (parse : Str → Value) (hp : plugin.Lawful) {env : Str → Option Str}
    {root : Value} (hroot : ConfiguredWell deserialize root) {fallback : EnvFallback} {raw : Str}
    (h : FillsKey plugin env root fallback raw) :
    filledKey parse plugin env root fallback.key = some (parse raw) := by
  have hin : parse raw ∈ plugin.envFallbacks.filterMap
      (EnvFallback.valueFor parse env fallback.key) :=
    List.mem_filterMap.mpr ⟨fallback, h.mem, valueFor_eq_some.mpr ⟨rfl, raw, h.set, rfl⟩⟩
  rw [filterMap_valueFor parse env hp.keys, Option.mem_toList] at hin
  rw [filledKey, (leavesUnset_iff hroot _).mp h.unset, Option.none_or]
  exact hin

/-- Texts that read as themselves fill the configured section with strings. -/
theorem fills_of_readAsThemselves {parse : Str → Value} (hp : plugin.Lawful)
    {env : Str → Option Str} {root : Value} (hroot : ConfiguredWell deserialize root)
    (hreads : ReadAsThemselves parse plugin env root) :
    plugin.Fills (configuredKey plugin root) (filledKey parse plugin env root) := by
  intro key
  cases hkey : configuredKey plugin root key with
  | some value => exact .inl (by rw [filledKey, hkey]; rfl)
  | none =>
    cases hfirst : firstSet parse env plugin.envFallbacks key with
    | none => exact .inl (by rw [filledKey, hkey, hfirst]; rfl)
    | some value =>
      obtain ⟨fallback, hmem, hvalue⟩ := List.exists_of_findSome?_eq_some hfirst
      obtain ⟨rfl, raw, hset, rfl⟩ := valueFor_eq_some.mp hvalue
      have hfills : FillsKey plugin env root fallback raw :=
        ⟨hmem, hset, (leavesUnset_iff hroot _).mpr hkey⟩
      exact .inr ⟨List.mem_map_of_mem hmem, _, raw, filledKey_of_fillsKey parse hp hroot hfills,
        hreads fallback raw hfills⟩

end Exact

/-- **String fields hold their variables' exact texts if and only if each text reads as itself.**
For the Sentry, OpenTelemetry and database sections, over every configuration that loaded and whose
section is absent or deserializes: `get_or_env` succeeds and every string field that is left unset
and whose variable is set holds its text, exactly when `figment` reads each of these texts as the
string of that very text. -/
theorem string_fallbacks_exact_iff {F D E : Type} (c : FigmentCrate F D Value E) (hc : c.Layered)
    (invalid : Value → Str → E) (dbPoolSize : Nat) (env : Str → Option Str) (figment : F)
    (root : Value) (htree : c.tree figment = .ok root) (plugin : StringSection E)
    (hplugin : plugin ∈ stringSections invalid dbPoolSize)
    (deserialize : Value → Except E plugin.Config) (hde : Deserializes plugin deserialize)
    (hroot : ConfiguredWell deserialize root) :
    (∃ cfg, getOrEnv c deserialize plugin.default env figment plugin.configPrefix
        plugin.envFallbacks = .ok cfg ∧ HoldsTexts plugin env root cfg) ↔
      ReadAsThemselves c.parseValue plugin env root := by
  have hp := stringSections_lawful hplugin
  simp only [getOrEnv_eq_read hc hp hde env htree hroot]
  constructor
  · rintro ⟨cfg, hread, hexact⟩ fallback raw hfills
    have hkey := filledKey_of_fillsKey c.parseValue hp hroot hfills
    have htext := hexact fallback raw hfills
    rcases hp.holds fallback hfills.mem _ cfg _ hread hkey with ⟨text, hreads, htext'⟩ | ⟨-, hnone⟩
    · obtain rfl : raw = text := Option.some.inj (htext.symm.trans htext')
      exact hreads
    · rw [htext] at hnone
      cases hnone
  · intro hreads
    obtain ⟨cfg₀, hread₀⟩ := read_configuredKey hp hde hroot
    obtain ⟨cfg, hread⟩ :=
      hp.fills _ _ cfg₀ hread₀ (fills_of_readAsThemselves hp hroot hreads)
    refine ⟨cfg, hread, fun fallback raw hfills => ?_⟩
    have hkey := filledKey_of_fillsKey c.parseValue hp hroot hfills
    have hraw := hreads fallback raw hfills
    rcases hp.holds fallback hfills.mem _ cfg _ hread hkey with ⟨text, htext, hfield⟩ | ⟨hempty, -⟩
    · rw [hfield, readsString_unique htext hraw]
    · rw [hempty] at hraw
      rcases hraw with h | ⟨ch, -, h⟩ <;> cases h

/-! ## 7. A release of digits -/

/-- The Sentry section, with a table read as such and nothing else read. -/
def sentryDeserialize (value : Value) : Except Str SentryConfig :=
  if value.isTable then SentryConfig.read (fun _ expected => expected) value.get
  else .error "a table".toList

/-- A release with letters in it is read as it is. -/
theorem string_fallbacks_exact_release :
    ∃ cfg, getOrEnv treeCrate sentryDeserialize {} (oneVar "SENTRY_RELEASE" "v1.2.3")
        (.ok .empty) "sentry".toList sentryEnvFallbacks = .ok cfg ∧
      HoldsTexts (sentry fun _ expected => expected) (oneVar "SENTRY_RELEASE" "v1.2.3")
        Root.empty.value cfg :=
  (string_fallbacks_exact_iff treeCrate treeCrate_layered (fun _ expected => expected) 4
    (oneVar "SENTRY_RELEASE" "v1.2.3") (.ok .empty) Root.empty.value rfl
    (sentry fun _ expected => expected) List.mem_cons_self sentryDeserialize
    (fun value htable => if_pos htable) (by rintro value ⟨⟩)).mpr (by
      rintro fallback raw ⟨hmem, hset, -⟩
      simp only [sentry, sentryEnvFallbacks, List.mem_cons, List.not_mem_nil, or_false] at hmem
      rcases hmem with rfl | rfl | rfl <;> cases hset
      exact .inl rfl)

/-- **A release of digits** leaves the section unread, and the plugin is not built. -/
theorem numeric_release_fails :
    FillsKey (sentry fun _ expected => expected) (oneVar "SENTRY_RELEASE" "1234567")
        Root.empty.value { var := "SENTRY_RELEASE".toList, key := "release".toList }
        "1234567".toList ∧
      getOrEnv treeCrate sentryDeserialize {} (oneVar "SENTRY_RELEASE" "1234567") (.ok .empty)
        "sentry".toList sentryEnvFallbacks = .error (.config "a string".toList) := by
  refine ⟨⟨?_, rfl, ?_⟩, rfl⟩
  · exact List.mem_cons_of_mem _ (List.mem_cons_of_mem _ List.mem_cons_self)
  · rintro value ⟨⟩

end Muxa.Core
