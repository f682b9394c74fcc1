import Teletype.Settings.Basic

/-! # Reading settings

What is read from an object depends on its members by their names alone. Settings that are read have in each
field what its member holds, or the default where there is no such member. -/

namespace Teletype.Settings

/-! ### What is valid -/

namespace Checked
variable {α β : Type} {f : Checked (α → β)} {g : α → β} {x : Checked α} {a : α} {b : β}

theorem map_eq_valid : g <$> x = .valid b ↔ ∃ a, x = .valid a ∧ g a = b := by
  cases x with
  | valid a => simp [Functor.map, Checked.map]
  | invalid issues => simp [Functor.map, Checked.map]

theorem seq_eq_valid : f <*> x = .valid b ↔ ∃ g, f = .valid g ∧ ∃ a, x = .valid a ∧ g a = b := by
  cases f <;> cases x <;> simp [Seq.seq, Checked.ap]

theorem within_eq_valid (step : Step) : x.within step = .valid a ↔ x = .valid a := by
  cases x <;> simp [Checked.within]

end Checked

variable {α : Type} {read : Reader α} {default a b : α} {members others : List (String × Data.Value)}

/-- A value is the one that a member of the data holds, or the default if there is no such member. -/
def Held (read : Reader α) (default : α) (member : Option Data.Value) (a : α) : Prop :=
  match member with
  | some v => read v = .valid a
  | none => a = default

theorem Held.unique {member : Option Data.Value} (ha : Held read default member a) (hb : Held read default member b) :
    a = b := by
  cases member with
  | none => exact Eq.trans ha (Eq.symm hb)
  | some v => exact Checked.valid.inj (Eq.trans (Eq.symm ha) hb)

theorem optional_eq_valid (name : String) :
    optional members name read default = .valid a ↔ Held read default (members.lookup name) a := by
  unfold optional Held
  cases members.lookup name with
  | none => simp [eq_comm]
  | some v => exact Checked.within_eq_valid _

theorem optional_congr {name : String} (h : members.lookup name = others.lookup name) :
    optional members name read default = optional others name read default := by
  unfold optional
  rw [h]

/-! ### Sections -/

theorem ShellSettings.reader_congr (h : ∀ name, members.lookup name = others.lookup name) :
    ShellSettings.reader (.object members) = ShellSettings.reader (.object others) := by
  simp only [ShellSettings.reader, record, optional_congr (h _)]

theorem RecorderSettings.reader_congr (h : ∀ name, members.lookup name = others.lookup name) :
    RecorderSettings.reader (.object members) = RecorderSettings.reader (.object others) := by
  simp only [RecorderSettings.reader, record, optional_congr (h _)]

/-- What is read of a shell's settings, field by field. -/
theorem ShellSettings.held {s : ShellSettings} (h : ShellSettings.reader (.object members) = .valid s) :
    Held .text "sh" (members.lookup "shell") s.shell ∧
    Held .texts ["-c"] (members.lookup "command_args") s.commandArgs ∧
    Held .text "xterm-256color" (members.lookup "term") s.term ∧
    Held .text "C.UTF-8" (members.lookup "default_lang") s.defaultLang ∧
    Held .text "session-user" (members.lookup "run_as_user") s.runAsUser ∧
    Held .text "/home/\x7buser\x7d" (members.lookup "home_template") s.homeTemplate ∧
    Held Backend.reader .native (members.lookup "identity_backend") s.backend := by
  simp only [ShellSettings.reader, record, Checked.seq_eq_valid, Checked.map_eq_valid, optional_eq_valid] at h
  obtain ⟨_, ⟨_, ⟨_, ⟨_, ⟨_, ⟨_, ⟨_, hshell, rfl⟩, _, hargs, rfl⟩, _, hterm, rfl⟩, _, hlang, rfl⟩, _, huser, rfl⟩,
    _, hhome, rfl⟩, _, hbackend, rfl⟩ := h
  exact ⟨hshell, hargs, hterm, hlang, huser, hhome, hbackend⟩

/-- What is read of the settings of recordings, field by field. -/
theorem RecorderSettings.held {s : RecorderSettings} (h : RecorderSettings.reader (.object members) = .valid s) :
    Held .whole 30000 (members.lookup "screen_buffer_size") s.screenBufferSize ∧
    Held .text "session-logger" (members.lookup "session_logger") s.sessionLogger ∧
    Held .text "screen -h \x7bbuffer_size\x7d" (members.lookup "screen_command") s.screenCommand ∧
    Held .text "script \x7blog_file\x7d" (members.lookup "record_command") s.recordCommand ∧
    Held .text "\x7blogger\x7d \x7bipc_file\x7d \x7bblocking\x7d" (members.lookup "logger_command") s.loggerCommand ∧
    Held .text "exit" (members.lookup "exit_command") s.exitCommand ∧
    Held .real (.ofInt 15) (members.lookup "ready_timeout") s.readyTimeout ∧
    Held .real (.ofInt 300) (members.lookup "logger_timeout") s.loggerTimeout ∧
    Held .real (.ofInt 30) (members.lookup "exit_timeout") s.exitTimeout ∧
    Held .real (.ofInt 1) (members.lookup "probe_interval") s.probeInterval ∧
    Held .real (.ofInt 15) (members.lookup "flush_timeout") s.flushTimeout := by
  simp only [RecorderSettings.reader, record, Checked.seq_eq_valid, Checked.map_eq_valid, optional_eq_valid] at h
  obtain ⟨_, ⟨_, ⟨_, ⟨_, ⟨_, ⟨_, ⟨_, ⟨_, ⟨_, ⟨_, ⟨_, hsize, rfl⟩, _, hhelper, rfl⟩, _, hscreen, rfl⟩, _, hrecord, rfl⟩,
    _, hlogger, rfl⟩, _, hexit, rfl⟩, _, hready, rfl⟩, _, hreplay, rfl⟩, _, hleave, rfl⟩, _, hinterval, rfl⟩,
    _, hflush, rfl⟩ := h
  exact ⟨hsize, hhelper, hscreen, hrecord, hlogger, hexit, hready, hreplay, hleave, hinterval, hflush⟩

/-- Fields whose members are the same are read the same. -/
theorem ShellSettings.eq_of_agree {s s' : ShellSettings} (h : ShellSettings.reader (.object members) = .valid s)
    (h' : ShellSettings.reader (.object others) = .valid s')
    (hsame : ∀ name, name ∉ ["shell", "run_as_user", "identity_backend"] → members.lookup name = others.lookup name) :
    { s' with shell := s.shell, runAsUser := s.runAsUser, backend := s.backend } = s := by
  obtain ⟨-, hargs, hterm, hlang, -, hhome, -⟩ := ShellSettings.held h
  obtain ⟨-, hargs', hterm', hlang', -, hhome', -⟩ := ShellSettings.held h'
  rw [hsame _ (by decide)] at hargs hterm hlang hhome
  obtain ⟨shell, commandArgs, term, defaultLang, runAsUser, homeTemplate, backend⟩ := s
  simp only [ShellSettings.mk.injEq, true_and, and_true]
  exact ⟨hargs'.unique hargs, hterm'.unique hterm, hlang'.unique hlang, hhome'.unique hhome⟩

theorem RecorderSettings.eq_of_agree {s s' : RecorderSettings} (h : RecorderSettings.reader (.object members) = .valid s)
    (h' : RecorderSettings.reader (.object others) = .valid s')
    (hsame : ∀ name, name ∉ ["screen_buffer_size", "session_logger"] → members.lookup name = others.lookup name) :
    { s' with screenBufferSize := s.screenBufferSize, sessionLogger := s.sessionLogger } = s := by
  obtain ⟨-, -, hscreen, hrecord, hlogger, hexit, hready, hreplay, hleave, hinterval, hflush⟩ := RecorderSettings.held h
  obtain ⟨-, -, hscreen', hrecord', hlogger', hexit', hready', hreplay', hleave', hinterval', hflush'⟩ :=
    RecorderSettings.held h'
  rw [hsame _ (by decide)] at hscreen hrecord hlogger hexit hready hreplay hleave hinterval hflush
  obtain ⟨screenBufferSize, sessionLogger, screenCommand, recordCommand, loggerCommand, exitCommand, readyTimeout,
    loggerTimeout, exitTimeout, probeInterval, flushTimeout⟩ := s
  simp only [RecorderSettings.mk.injEq, true_and]
  exact ⟨hscreen'.unique hscreen, hrecord'.unique hrecord, hlogger'.unique hlogger, hexit'.unique hexit,
    hready'.unique hready, hreplay'.unique hreplay, hleave'.unique hleave, hinterval'.unique hinterval,
    hflush'.unique hflush⟩

/-- The members of a section of the data: none if there is no such section. -/
def sectionOf (members : Data.Table Data.Value) (name : String) : Data.Table Data.Value :=
  match members.get? name with
  | some (.object m) => m
  | _ => []

/-- A section is an object, if it is there at all. -/
def IsSection (members : Data.Table Data.Value) (name : String) : Prop :=
  ∀ v, members.get? name = some v → ∃ m, v = .object m

theorem IsSection.get? {members : Data.Table Data.Value} {name : String} (h : IsSection members name) :
    members.get? name = none ∧ sectionOf members name = [] ∨ members.get? name = some (.object (sectionOf members name)) := by
  unfold sectionOf
  cases hget : members.get? name with
  | none => exact Or.inl ⟨rfl, rfl⟩
  | some v =>
    obtain ⟨m, rfl⟩ := h v hget
    exact Or.inr rfl

/-- A section that is not there is as good as an empty one, of which all is default. -/
theorem optional_section {members : Data.Table Data.Value} {name : String} (h : IsSection members name)
    (hempty : read (.object []) = .valid default) :
    optional members name read default = (read (.object (sectionOf members name))).within (.field name) := by
  unfold optional
  rcases h.get? with ⟨hget, hsection⟩ | hget <;> rw [Data.Table.get?] at hget <;> rw [hget]
  rw [hsection, hempty]
  rfl

end Teletype.Settings
