import Grapnel.Guest.Token

namespace Grapnel

namespace Prelude

/-- Captures what the other parts use, where no script can reach it. -/
def captures : List String :=
  ["",
    "",
    "",
    "local host = ...",
    "",
    "local type, setmetatable, tostring = type, setmetatable, tostring",
    "local string_sub = string.sub",
    "local coroutine_running = coroutine.running",
    "local coroutine_yield = coroutine.yield",
    "local coroutine_isyieldable = coroutine.isyieldable",
    "",
    "local schedule = host.task_schedule",
    "local wait_native = host.task_wait",
    "local cancel = host.task_cancel",
    "local sleep = host.sleep",
    "",
    "local signal_create = host.signal_create",
    "local signal_connect = host.signal_connect",
    "local signal_fire = host.signal_fire",
    "local signal_destroy = host.signal_destroy",
    "",
    "host = nil",
    ""]

/-- Takes libraries away; only texts can be loaded, and not under names of the engine. -/
def hardening : List String :=
  ["",
    "io = nil",
    "package = nil",
    "require = nil",
    "dofile = nil",
    "loadfile = nil",
    "debug = nil",
    "",
    "local os_clock, os_time, os_date, os_difftime = os.clock, os.time, os.date, os.difftime",
    "os = \x7b",
    "    clock = os_clock,",
    "    time = os_time,",
    "    date = os_date,",
    "    difftime = os_difftime,",
    "\x7d",
    "",
    "",
    "local raw_load = load",
    "load = function(chunk, chunkname, _mode, env)",
    "    if type(chunkname) == \"string\" and string_sub(chunkname, 1, 9) == \"=[tether:\" then",
    "        return nil, \"chunk name is reserved: \" .. chunkname",
    "    end",
    "",
    "    if env ~= nil then",
    "        return raw_load(chunk, chunkname, \"t\", env)",
    "    end",
    "",
    "    return raw_load(chunk, chunkname, \"t\")",
    "end",
    ""]

def tasks : List String :=
  ["",
    "local task = \x7b\x7d",
    "",
    "function task.spawn(body, ...)",
    "    return schedule(\"spawn\", 0, body, ...)",
    "end",
    "",
    "function task.defer(body, ...)",
    "    return schedule(\"defer\", 0, body, ...)",
    "end",
    "",
    "function task.delay(seconds, body, ...)",
    "    return schedule(\"delay\", seconds or 0, body, ...)",
    "end",
    "",
    "function task.cancel(id)",
    "    return cancel(id)",
    "end",
    "",
    "function task.wait(seconds)",
    "    seconds = seconds or 0",
    "",
    "    local thread, main = coroutine_running()",
    "    if main or not coroutine_isyieldable() then",
    "        sleep(seconds)",
    "        return seconds",
    "    end",
    "",
    "    wait_native(thread, seconds)",
    "    return coroutine_yield()",
    "end",
    "",
    "_G.task = task",
    ""]

def signals : List String :=
  ["",
    "local Signal = \x7b\x7d",
    "Signal.__index = Signal",
    "",
    "function Signal.new(name)",
    "    if name == nil then",
    "        name = \"Signal\"",
    "    end",
    "",
    "    return setmetatable(\x7b Name = tostring(name), _id = signal_create(tostring(name)) \x7d, "
      ++ "Signal)",
    "end",
    "",
    "function Signal:Connect(callback)",
    "    return signal_connect(self._id, callback)",
    "end",
    "",
    "function Signal:Fire(...)",
    "    signal_fire(self._id, ...)",
    "end",
    "",
    "function Signal:Wait()",
    "",
    "    task.wait()",
    "    return nil",
    "end",
    "",
    "function Signal:Destroy()",
    "    signal_destroy(self._id)",
    "end",
    "",
    "function Signal:__tostring()",
    "    return \"Signal \" .. self.Name",
    "end",
    "",
    "_G.Signal = \x7b new = Signal.new \x7d"]

/-- The first chunk that a guest runs. Messages name its lines, so none of them may move. -/
def source : Guest.Text :=
  Guest.text ("\n".intercalate (captures ++ hardening ++ tasks ++ signals))

end Prelude

end Grapnel
