import FrameCache.Replay.Trace

/-!
# Sessions

A `Session` is a frame loop in an environment under the control of a script: it chooses how
long calls take and which uploads fail, what the platform does when it starts and polls,
and which other threads hand closures to the loop.  `Session.act` takes an action, and
`Session.tick` runs a frame in which the platform plays its script.
-/

namespace FrameCache

/-- How long the calls of each sort take. -/
structure Costs where
  /-- A poll of the platform. -/
  poll : Duration := .zero
  /-- A step of the animations. -/
  animate : Duration := .zero
  /-- Drawing an object. -/
  paint : Duration := .zero
  /-- Creating a renderer. -/
  createRenderer : Duration := .zero
  /-- Uploading a texture. -/
  createTexture : Duration := .zero

/-- The costs with another cost for the calls of one sort. -/
def Costs.set (c : Costs) (call : TimedCall) (d : Duration) : Costs :=
  match call with
  | .poll => { c with poll := d }
  | .animate => { c with animate := d }
  | .paint => { c with paint := d }
  | .createRenderer => { c with createRenderer := d }
  | .createTexture => { c with createTexture := d }

/-- A thread that hands closures to the frame thread, one after the other. -/
structure Worker where
  /-- The thread. -/
  thread : ThreadId
  /-- The closure it waits for. -/
  waiting : Option Nat := none
  /-- The closures still to be handed in. -/
  todo : List (Nat × Job)
  /-- In the end it requests to quit. -/
  quits : Bool

/-- A frame loop in a scripted environment. -/
structure Session where
  /-- The loop. -/
  loop : FrameLoop
  /-- The clock that actions move, if the loop reads another one, which runs by itself. -/
  apart : Option Clock := none
  /-- The painter and the platform of the loop support required calls only. -/
  bare : Bool := false
  /-- How long calls take. -/
  costs : Costs := {}
  /-- All uploads fail. -/
  failAll : Bool := false
  /-- The objects whose uploads fail. -/
  failing : List ObjectId := []
  /-- What the platform does when the loop starts. -/
  started : List Action := []
  /-- What the platform does on each of the next polls. -/
  polls : List (List Action) := []
  /-- The other threads. -/
  workers : List Worker := []
  /-- The number of canvases made. -/
  canvases : Nat := 0
  /-- The number of surfaces made. -/
  surfaces : Nat := 0
  /-- The number of threads started. -/
  threads : Nat := 0
  /-- The trace of the current step, the latest mark first. -/
  trace : List Mark := []

namespace Session

/-- How far a call moves the clock that actions move. -/
def cost (s : Session) : Event → Duration
  | .polled => if s.bare then .zero else s.costs.poll
  | .animated _ => if s.bare then .zero else s.costs.animate
  | .painted _ _ _ => s.costs.paint
  | .rendererCreated _ _ => s.costs.createRenderer
  | .textureCreated _ _ => s.costs.createTexture
  | _ => .zero

/-- How calls behave in a session. -/
def policy (s : Session) : Policy where
  pause _ e := if s.apart.isSome then Clock.moment else s.cost e
  upload l o :=
    if s.failAll || o ∈ s.failing then none else Policy.prompt.upload l o

/-- The studio. -/
def studio (s : Session) : Studio := s.loop.studio

/-- The session with another studio. -/
def withStudio (s : Session) (studio : Studio) : Session :=
  { s with loop := { s.loop with studio } }

/-- The session with its policy made known to the host. -/
def withPolicy (s : Session) : Session :=
  s.withStudio { s.studio with host.policy := s.policy }

/-- A session of a configuration. -/
def start (config : Config) (apart : Option Clock) (bare : Bool) : Session :=
  withPolicy
    { loop := .ofConfig .spread config .prompt, apart, bare }

/-- Adds marks to the trace, after the calls made since the last ones.  If the loop reads a
clock of its own, it is now that the calls move the other. -/
def mark (s : Session) (m : List Mark) : Session :=
  let log := s.studio.host.log
  { s.withStudio { s.studio with host.log := { log with calls := [] } } with
    trace := m ++ log.events.map .call ++ s.trace
    apart := s.apart.map fun c => log.events.foldr (fun e c => c.advance (s.cost e)) c }

/-- The session when a clock that runs by itself has moved by `d`.  Other clocks stand. -/
def elapse (s : Session) (d : Duration) : Session :=
  if s.apart.isSome then
    s.withStudio { s.studio with host.clock := s.studio.host.clock.advance d }
  else s

/-- Uses the inventory at the current instant. -/
def query {α : Type} (s : Session) (f : Inventory → Instant → α × Inventory) :
    α × Session :=
  let (a, studio) := s.studio.query f
  (a, s.withStudio studio)

/-- Changes the inventory at the current instant. -/
def update (s : Session) (f : Inventory → Instant → Inventory) : Session :=
  s.withStudio (s.studio.update f)

/-- Uses the studio. -/
def use {α : Type} (s : Session) (f : Studio → α × Studio) : α × Session :=
  let (a, studio) := f s.studio
  (a, s.withStudio studio)

/-- Moves the clock that actions move. -/
def moveClock (s : Session) (f : Clock → Clock) : Instant × Session :=
  match s.apart with
  | some c => ((f c).now, { s with apart := some (f c) })
  | none =>
    let clock := f s.studio.host.clock
    (clock.now, s.withStudio { s.studio with host.clock := clock })

/-- Changes a canvas. -/
def onCanvas {α : Type} (s : Session) (c : CanvasId) (f : Canvas → α × Canvas) :
    α × Session :=
  let (a, state) := f (s.loop.canvas c)
  (a, { s with loop := s.loop.setCanvas c state })

/-- Adds a node to a canvas. -/
def addNode (n : Node) (parent : Option Nat) (offset : Position) :
    Canvas → Option Nat × Canvas
  | .scene c =>
    match parent with
    | none => let (slot, c) := c.addRoot n offset; (some slot, .scene c)
    | some p => let (slot, c) := c.addChild p n offset; (slot, .scene c)
  | .sheet c => (none, .sheet { c with nodes := c.nodes.push (n, offset) })

/-- Adds `count` nodes to a canvas, each the child of the one before, and gives the slot of
the last.  Below a dead slot nothing is added. -/
def addChain (offset : Position) : (count : Nat) → ObjectId → Option Nat → Canvas →
    Option Nat × Canvas
  | 0, _, _, c => (none, c)
  | count + 1, o, parent, c =>
    match addNode (.plain o) parent offset c with
    | (some slot, c) =>
      let (last, c) := addChain offset count o.next (some slot) c
      (last <|> some slot, c)
    | (none, .scene c) => (none, .scene c)
    | (none, .sheet c) => addChain offset count o.next none (.sheet c)

/-- The closures that answer with the squares of the numbers below `count`.  Each gives
the object of its number a theme. -/
def squares (count : Nat) : List (Nat × Job) :=
  (List.range count).map fun i =>
    (i, .act (fun onFrame s => (s.record (.taskRun i onFrame)).update fun inv now =>
      inv.setTheme ⟨.ofNat i⟩ ⟨"task"⟩ now) (.finish (i * i)))

/-- Starts a thread. -/
def spawn (s : Session) (todo : List (Nat × Job)) (quits : Bool) : Session :=
  { s with
    threads := s.threads + 1
    workers := s.workers ++ [{ thread := ⟨s.threads + 1⟩, todo, quits }] }

/-- Takes an action. -/
def act (s : Session) : Action → Answer × Session
  | .advance d => let (t, s) := s.moveClock (·.advance d); (.instant t, s)
  | .set d => let (t, s) := s.moveClock (·.set d); (.instant t, s)
  | .cost call d => (.nothing, { s with costs := s.costs.set call d }.withPolicy)
  | .failTextures failAll failing => (.nothing, { s with failAll, failing }.withPolicy)
  | .measured k => let (v, s) := s.query (·.measured k); (.measured v, s)
  | .setMeasured k v => (.nothing, s.update (·.setMeasured k v))
  | .icon k => let (v, s) := s.query (·.icon k); (.icon v, s)
  | .setIcon k v => (.nothing, s.update (·.setIcon k v))
  | .forgetTheme => (.nothing, s.update fun i _ => i.forgetTheme)
  | .register c => (.nothing, s.update fun i _ => i.register c)
  | .isRegistered c => (.flag (s.studio.inventory.isRegistered c), s)
  | .canvasOf o => let (c, s) := s.query (·.canvasOf o); (.canvas c, s)
  | .mount o m => (.nothing, s.update (·.mount o m))
  | .touch o => let (b, s) := s.query (·.touch o); (.flag b, s)
  | .forgetCanvas c => let (n, s) := s.use (·.forgetCanvas c); (.count n, s)
  | .renderer o => let (r, s) := s.use (·.renderer o); (.renderer r, s)
  | .findRenderer o => let (r, s) := s.query (·.findRenderer o); (.flag r.isSome, s)
  | .hasRenderer o => (.flag (s.studio.inventory.hasRenderer o s.studio.now), s)
  | .setTheme o t => (.nothing, s.update (·.setTheme o t))
  | .themeOf o => let (t, s) := s.query (·.themeOf o); (.theme t, s)
  | .texture o => let (h, s) := s.use (·.texture o); (.texture h, s)
  | .findTexture o => (.texture (s.studio.inventory.findTexture o s.studio.now), s)
  | .dropTexture o => let (b, s) := s.use (·.dropTexture o); (.flag b, s)
  | .sweep repainted refreshed =>
    let (r, s) := s.use (·.sweep repainted refreshed)
    (.sweep r, s)
  | .decideAt repainted refreshed =>
    let (d, s) := s.query fun i now =>
      let (d, schedule) := i.schedule.decideAt now repainted refreshed
      (d, { i with schedule })
    (.decision d, s)
  | .schedule =>
    let schedule := s.studio.inventory.schedule
    (.schedule schedule.lastSweep schedule.pending, s)
  | .metrics => (.metrics s.studio.inventory.metrics, s)
  | .scene flat =>
    let n := s.canvases + 1
    let c : Canvas := if flat then .sheet {} else .scene .empty
    (.count n, { s with canvases := n, loop := s.loop.setCanvas ⟨.ofNat n⟩ c })
  | .add c n parent offset =>
    let (slot, s) := s.onCanvas c (addNode n parent offset)
    (.slot slot, s)
  | .chain c first count parent offset =>
    let (slot, s) := s.onCanvas c (addChain offset count first parent)
    (.slot slot, s)
  | .remove c slot =>
    s.onCanvas c fun
      | .scene c => (.nothing, .scene (c.remove slot))
      | .sheet c => (.nothing, .sheet c)
  | .invalidate c o =>
    s.onCanvas c fun
      | .scene c => (.nothing, .scene (c.markStale o))
      | .sheet c => (.nothing, .sheet c)
  | .takeDirty c => let (b, s) := s.onCanvas c (·.takeDirty); (.flag b, s)
  | .setDirty c => s.onCanvas c fun c => (.nothing, c.setDirty)
  | .restyle c => s.onCanvas c fun c => (.nothing, c.restyle)
  | .takeStaleTextures c =>
    let (os, s) := s.onCanvas c (·.takeStaleTextures)
    (.objects os, s)
  | .walk c => (.nodes (s.loop.canvas c).walk, s)
  | .paintAll c =>
    let (n, s) := s.use (·.paintAll c (s.loop.canvas c).walk)
    (.count n, s)
  | .keepAlive c =>
    let (n, s) := s.use (·.keepAlive (s.loop.canvas c).walk)
    (.count n, s)
  | .surface i visible closing =>
    let state := s.loop.surface i
    let state := { state with
      visible := visible.getD state.visible
      closing := closing.getD state.closing }
    (.count state.closePolls, { s with loop := s.loop.setSurface i state })
  | .send change =>
    if s.loop.hasSender then
      (.maybeFlag (some true), { s with loop := s.loop.send change })
    else (.maybeFlag none, s)
  | .dropSender => (.flag s.loop.hasSender, { s with loop := s.loop.dropSender })
  | .requestQuit =>
    (.nothing, { s with loop := { s.loop with quitRequests := s.loop.quitRequests + 1 } })
  | .onFrame v =>
    let caller := s.loop.isOwner s.loop.thread
    match s.loop.submit s.loop.thread (.finish v) with
    | (.ran (some v), loop) => (.onFrame caller v caller, { s with loop })
    | (_, loop) => (.taskFailed, { s with loop })
  | .spawnTasks count => (.nothing, s.spawn (squares count) true)
  | .spawnFailingTask => (.nothing, s.spawn [(0, .fail)] false)

/-- Plays a script of the platform. -/
def playScript (s : Session) (actions : List Action) : Session :=
  actions.foldl (fun s a =>
    let (answer, s) := (s.elapse Clock.moment).act a
    s.mark [.acted answer]) (s.mark [])

/-- The platform polls its events and plays the next script. -/
def poll (s : Session) (loop : FrameLoop) : Session × FrameLoop :=
  let s := { s with loop }
  match s.polls with
  | [] => (s, s.loop)
  | actions :: polls =>
    let s := { s with polls }.playScript actions
    (s, s.loop)

/-- Runs a frame. -/
def tick (s : Session) : TickSummary × Session :=
  let (summary, s, loop) := s.loop.tick poll s
  (summary, { s with loop })

/-- Runs frames, moving the clock by `every` between two, and gives the last summary. -/
def ticks (every : Duration) : Nat → Session → Option TickSummary × Session
  | 0, s => (none, s)
  | 1, s => let (summary, s) := s.tick; (some summary, s)
  | n + 1, s => ticks every n (s.tick.2.moveClock (·.advance every)).2

end Session

end FrameCache
