import CovNet.Path.Normalize

/-!
# The settings of a server

`http_server.set_config` (`netutils.ecs`) takes eleven numbers from a map, one after the other. A number below the
least value of its setting is raised to that, and the first one that is no integer raises, with the settings in front
of it set. `Config.Valid` is what is kept all the same: no call takes a setting below its least value, so a server
always has a worker, and a connection a request.
-/

namespace CovNet.Workers
open Text CovNet.Path

/-- The settings that are numbers, in the order of `set_config`. -/
inductive Setting where
  | threadCount
  | workerCount
  | maxKeepAlive
  | keepAliveTimeout
  | masterWorkerCount
  | masterDispatchRetry
  | maxConnections
  | heartbeatInterval
  | slaveSpawnTimeout
  | slaveKeepAliveTimeout
  | maxBodySize
  deriving DecidableEq, Repr

namespace Setting

/-- The key in the map. -/
def key : Setting → Bytes
  | threadCount => bytes "thread_count"
  | workerCount => bytes "worker_count"
  | maxKeepAlive => bytes "max_keep_alive"
  | keepAliveTimeout => bytes "keep_alive_timeout"
  | masterWorkerCount => bytes "master_worker_count"
  | masterDispatchRetry => bytes "master_dispatch_retry"
  | maxConnections => bytes "max_connections"
  | heartbeatInterval => bytes "heartbeat_interval"
  | slaveSpawnTimeout => bytes "slave_spawn_timeout"
  | slaveKeepAliveTimeout => bytes "slave_keep_alive_timeout"
  | maxBodySize => bytes "max_body_size"

/-- The least value. -/
def least : Setting → Int
  | threadCount => 1
  | workerCount => 1
  | maxKeepAlive => 1
  | keepAliveTimeout => 0
  | masterWorkerCount => 1
  | masterDispatchRetry => 0
  | maxConnections => 1
  | heartbeatInterval => 0
  | slaveSpawnTimeout => 0
  | slaveKeepAliveTimeout => 1
  | maxBodySize => 1

/-- The value of a new server. -/
def default : Setting → Int
  | threadCount => 4
  | workerCount => 32
  | maxKeepAlive => 100
  | keepAliveTimeout => 5000
  | masterWorkerCount => 4
  | masterDispatchRetry => 2
  | maxConnections => 100
  | heartbeatInterval => 1000
  | slaveSpawnTimeout => 1000
  | slaveKeepAliveTimeout => 5000
  | maxBodySize => 67108864

/-- The settings in the order of `set_config`. -/
def all : List Setting :=
  [threadCount, workerCount, maxKeepAlive, keepAliveTimeout, masterWorkerCount, masterDispatchRetry, maxConnections,
    heartbeatInterval, slaveSpawnTimeout, slaveKeepAliveTimeout, maxBodySize]

lemma all_nodup : all.Nodup := by decide

lemma mem_all (setting : Setting) : setting ∈ all := by
  cases setting <;> decide

lemma least_le_default (setting : Setting) : setting.least ≤ setting.default := by
  cases setting <;> decide

end Setting

/-- The settings of a server. -/
structure Config where
  wwwroot : Option Bytes
  value : Setting → Int

namespace Config

/-- The settings of a new server. -/
def new : Config := ⟨none, Setting.default⟩

/-- No setting is below its least value. -/
def Valid (c : Config) : Prop := ∀ setting : Setting, setting.least ≤ c.value setting

/-- The settings with one of them changed. -/
def assign (c : Config) (setting : Setting) (n : Int) : Config :=
  { c with value := Function.update c.value setting (if n < setting.least then setting.least else n) }

end Config

/-- The map that is given to `set_config`, with the conversions of its values. -/
structure Conf (ν : Type) where
  get : Bytes → Option ν
  asString : ν → Option Bytes
  asInteger : ν → Option Int

namespace Conf
variable {ν : Type}

/-- The numbers of `set_config` from a setting on, and whether the call has got past them. -/
def numbers (conf : Conf ν) : List Setting → Config → Config × Bool
  | [], c => (c, true)
  | setting :: rest, c =>
    match conf.get setting.key with
    | none => conf.numbers rest c
    | some v =>
      match conf.asInteger v with
      | none => (c, false)
      | some n => conf.numbers rest (c.assign setting n)

/-- `set_config`: the settings behind it, and whether it has returned. -/
def setConfig (conf : Conf ν) (sep : Separator) (isDirectory : Bytes → Bool) (c : Config) : Config × Bool :=
  match conf.get (bytes "wwwroot") with
  | none => conf.numbers Setting.all c
  | some v =>
    match conf.asString v with
    | none => (c, false)
    | some path => conf.numbers Setting.all { c with wwwroot := setWwwroot sep isDirectory c.wwwroot path }

end Conf

/-- The settings a server comes to by calls of `set_config`. -/
inductive Configured : Config → Prop where
  | new :
    Configured .new
  | set {ν : Type} {c : Config} (conf : Conf ν) (sep : Separator) (isDirectory : Bytes → Bool) :
    Configured c →
    Configured (conf.setConfig sep isDirectory c).1

section Bounds
variable {ν : Type} {conf : Conf ν} {sep : Separator} {isDirectory : Bytes → Bool} {c : Config}

lemma Config.valid_new : Config.new.Valid := Setting.least_le_default

lemma Config.Valid.assign (valid : c.Valid) (setting : Setting) (n : Int) : (c.assign setting n).Valid := by
  intro other
  cases decEq other setting with
  | isTrue e =>
    subst e
    simp only [Config.assign, Function.update_self]
    split <;> omega
  | isFalse ne =>
    simp only [Config.assign, Function.update_of_ne ne]
    exact valid other

lemma Conf.numbers_valid (valid : c.Valid) (settings : List Setting) : (conf.numbers settings c).1.Valid := by
  induction settings generalizing c with
  | nil => exact valid
  | cons setting rest ih =>
    simp only [numbers]
    split
    · exact ih valid
    · split
      · exact valid
      · apply ih
        exact valid.assign setting _

lemma Conf.setConfig_valid (valid : c.Valid) : (conf.setConfig sep isDirectory c).1.Valid := by
  rw [setConfig]
  split
  · exact numbers_valid valid _
  · split
    · exact valid
    · apply numbers_valid
      exact valid

/-- No calls of `set_config` take a setting below its least value, whether they raise or not. -/
lemma Configured.valid (h : Configured c) : c.Valid := by
  induction h with
  | new => exact Config.valid_new
  | set conf sep isDirectory _ ih => exact Conf.setConfig_valid ih

/-- Numbers that were all taken: each of the settings is the one given to it, or as before. -/
lemma Conf.numbers_value {settings : List Setting} (nodup : settings.Nodup)
    (returns : (conf.numbers settings c).2 = true) (setting : Setting) :
    (conf.numbers settings c).1.value setting =
      if setting ∈ settings then
        (((conf.get setting.key).bind conf.asInteger).map (max setting.least)).getD (c.value setting)
      else c.value setting := by
  induction settings generalizing c with
  | nil => simp [numbers]
  | cons first rest ih =>
    obtain ⟨fresh, nodup⟩ := List.nodup_cons.mp nodup
    simp only [numbers] at returns ⊢
    cases got : conf.get first.key with
    | none =>
      simp only [got] at returns ⊢
      rw [ih nodup returns]
      cases decEq setting first with
      | isTrue e =>
        subst e
        simp [fresh, got]
      | isFalse ne => simp [ne]
    | some v =>
      simp only [got] at returns ⊢
      cases number : conf.asInteger v with
      | none =>
        simp only [number] at returns
        cases returns
      | some n =>
        simp only [number] at returns ⊢
        rw [ih nodup returns]
        cases decEq setting first with
        | isTrue e =>
          subst e
          simp only [fresh, if_false, Config.assign, Function.update_self, List.mem_cons_self, if_true, got, number,
            Option.bind_some, Option.map_some, Option.getD_some]
          split <;> omega
        | isFalse ne => simp [ne, Config.assign]

/-- A call of `set_config` that returns has raised every number it was given to the least value of its setting, and
left the settings without one alone. -/
lemma Conf.setConfig_value (returns : (conf.setConfig sep isDirectory c).2 = true) (setting : Setting) :
    (conf.setConfig sep isDirectory c).1.value setting =
      (((conf.get setting.key).bind conf.asInteger).map (max setting.least)).getD (c.value setting) := by
  have taken {c : Config} (ok : (conf.numbers Setting.all c).2 = true) :
      (conf.numbers Setting.all c).1.value setting =
        (((conf.get setting.key).bind conf.asInteger).map (max setting.least)).getD (c.value setting) := by
    rw [numbers_value Setting.all_nodup ok, if_pos setting.mem_all]
  rw [setConfig] at returns ⊢
  split
  · rename_i none
    simp only [none] at returns
    exact taken returns
  · rename_i v some
    simp only [some] at returns
    split
    · rename_i raises
      simp only [raises] at returns
      cases returns
    · rename_i path string
      simp only [string] at returns
      exact taken returns

end Bounds

end CovNet.Workers
