import PocketShell.Command.Script

/-!
# The registry of commands

A session finds its commands by name. Binding a name that is bound replaces the command in its
place, unless that command is immutable.

* `Registry.register` — binds a name to a command;
* `Registry.names`, `Registry.aliases` — all names, sorted, and the aliases in order;
* `Registry.labels` — the names in order, with what the commands say of themselves;
* `Registry.standard` — the built-in commands.
-/

namespace PocketShell

/-- **Registries.** The commands of a session by name, in the order in which the names were first
bound. -/
structure Registry where
  commands : OrderedMap Command := ∅

namespace Registry

/-- The command of a name. -/
def find? (registry : Registry) (name : String) : Option Command :=
  registry.commands.find? name

def size (registry : Registry) : Nat :=
  registry.commands.size

/-- **Registering.** Binds a name to a command, unless the name belongs to an immutable one. -/
def register (registry : Registry) (name : String) (command : Command) : Except Error Registry :=
  if (registry.find? name).any Command.immutable then .error (.immutableCommand name)
  else .ok ⟨registry.commands.insert name command⟩

/-- All names, sorted. -/
def names (registry : Registry) : List String :=
  registry.commands.keys.mergeSort

/-- The aliases with their texts, in order. -/
def aliases (registry : Registry) : List (String × String) :=
  registry.commands.entries.filterMap fun entry =>
    entry.2.aliasText?.map fun text => (entry.1, text)

/-- The names in order, with what the commands say of themselves. -/
def labels (registry : Registry) : List (String × Label) :=
  registry.commands.entries.map fun entry => (entry.1, entry.2.label)

/-- **The built-in commands.** -/
def standard : Registry where
  commands := Builtin.all.foldl (fun map command => map.insert command.name (.builtin command)) ∅

end Registry

end PocketShell
