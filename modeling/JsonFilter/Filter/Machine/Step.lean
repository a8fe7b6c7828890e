import JsonFilter.Filter.Machine.Basic
import JsonFilter.Value.Arithmetic

namespace JsonFilter.Filter

inductive Progress
  | next (m : Machine)
  | item (v : Value) (m : Machine)
  | failed (e : EvalError)
  | note (note : Note) (m : Machine)
  | exit (e : Exit)
  | done

def Comparison.holds (c : Comparison) (x y : Value) : Bool :=
  match c with
  | .lt => Value.less x y
  | .le => Value.atMost x y
  | .gt => Value.order x y == .gt
  | .ge => Value.order x y != .lt
  | .eq => Value.equal x y
  | .ne => !Value.equal x y

namespace Keyed

def groups : List (Value × Value) → List (List Value)
  | [] => []
  | (k, x) :: rest =>
    match groups rest, rest with
    | g :: gs, (k', _) :: _ => if Value.equal k k' then (x :: g) :: gs else [x] :: g :: gs
    | gs, _ => [x] :: gs

def firstLeast (pairs : List (Value × Value)) : Option Value :=
  (pairs.foldl (fun best p => match best with
    | none => some p
    | some b => if Value.less p.1 b.1 then some p else some b) none).map Prod.snd

def lastGreatest (pairs : List (Value × Value)) : Option Value :=
  (pairs.foldl (fun best p => match best with
    | none => some p
    | some b => if Value.less p.1 b.1 then some b else some p) none).map Prod.snd

def results (what : Keyed) (pairs : List (Value × Value)) : List Value :=
  let sorted := Value.sortedBy Prod.fst pairs
  match what with
  | .sort => [.arr (sorted.map Prod.snd)]
  | .group => [.arr ((groups sorted).map .arr)]
  | .least => (firstLeast pairs).toList
  | .greatest => (lastGreatest pairs).toList

end Keyed

def Change.result (how : Change) (old new : Value) : Except EvalError Value :=
  match how with
  | .set => .ok new
  | .math op => Value.calculate op old new
  | .default => .ok (if old.truthy then old else new)

def Slot.value (indices : List Value) : Slot → Value
  | .const v => v
  | .nth i => indices[i]?.getD .null

namespace Folding

def onElement (f : Folding) (x acc : Value) : Env × Focus :=
  match f with
  | .eval _ spread step _ env =>
    let env := env.bind spread x
    (env, .eval step env acc)
  | .update spread body env u =>
    let env := env.bind spread x
    (env, .update body env acc u)
  | .cond yes no env u => (env, .update (if x.truthy then yes else no) env acc u)
  | .paths steps u =>
    match x with
    | .arr is => ([], .apply (.steps steps is u) acc)
    | _ => ([], .deliver acc)

def emits : Folding → Option (Option Code)
  | .eval .foreach _ _ projection _ => some projection
  | _ => none

end Folding

namespace Machine

variable (m : Machine)

def goto (f : Focus) : Progress := .next { m with focus := f }

def deliver (v : Value) : Progress := m.goto (.deliver v)

def raise (e : EvalError) : Progress := m.goto (.raise e)

def ofExcept (r : Except EvalError Value) : Progress :=
  match r with
  | .ok v => m.deliver v
  | .error e => m.raise e

def push (k : Kont) (f : Focus) : Progress := .next { m with focus := f, konts := k :: m.konts }

def either (f g : Focus) : Progress :=
  .next { m with focus := f, choices := ⟨g, m.konts⟩ :: m.choices }

def enter (w : Watch) (f : Focus) (choices : List Choice) : Progress :=
  .next { m with focus := f, konts := [], choices, outer := ⟨w, m.konts, m.choices⟩ :: m.outer }

def watch (w : Watch) (c : Code) (env : Env) (v : Value) : Progress := m.enter w (.eval c env v) []

def values : List Value → Progress
  | [] => m.goto .exhausted
  | [v] => m.deliver v
  | v :: vs => m.either (.deliver v) (.values vs)

def descend : List Value → Progress
  | [] => m.goto .exhausted
  | v :: vs => m.either (.deliver v) (.descend (v.children ++ vs))

def within (x stop step : Value) : Bool :=
  match Value.order step (.int 0) with
  | .gt => Value.less x stop
  | .lt => Value.less stop x
  | .eq => !Value.equal x stop

def span (x stop step : Value) : Progress :=
  if within x stop step then
    m.either (.deliver x)
      (match Value.calculate .add x step with
        | .ok y => .span y stop step
        | .error e => .raise e)
  else m.goto .exhausted

def call (f : Code → Env → Focus) (lib : Library) (env : Env) : Code → Progress
  | .argument i =>
    match env[i]? with
    | some (.filter c inner) => m.goto (f c inner)
    | _ => m.goto .exhausted
  | .define body rest => m.goto (f rest (.function body :: env))
  | .callLocal i args =>
    match env.drop i with
    | .function body :: rest => m.goto (f body (env.call args (.function body :: rest)))
    | _ => m.goto .exhausted
  | .callGlobal i args =>
    match lib[i]? with
    | some g => m.goto (f g.body (env.call args []))
    | none => m.goto .exhausted
  | _ => m.raise .notPath

def native (host : Host) (run : Native) (args : List Value) (v : Value) : Progress :=
  match run v args with
  | .ok (.values vs) => m.values vs
  | .ok (.note n v) => .note n { m with focus := .deliver v }
  | .ok (.exit e) => .exit e
  | .ok (.ask f) => m.ofExcept (f host)
  | .ok (.clock f) => { m with looks := m.looks + 1 }.ofExcept (f (host.clock m.looks))
  | .error e => m.raise e

def keyed (what : Keyed) (key : Code) (env : Env) (v : Value) : Progress :=
  match v.asArray with
  | .error e => m.raise e
  | .ok [] => m.values (what.results [])
  | .ok (x :: xs) => m.watch (.keyed what key env [] [] x xs) key env x

def eval (lib : Library) (host : Host) (c : Code) (env : Env) (v : Value) : Progress :=
  match c with
  | .const w => m.deliver w
  | .identity => m.deliver v
  | .recurse => m.descend [v]
  | .toText => m.deliver (.str v.display)
  | .collect c => m.watch (.collect []) c env v
  | .single k c => m.push (.key c env v) (.eval k env v)
  | .negate c => m.push .negate (.eval c env v)
  | .pipe l r => m.push (.pipe r env) (.eval l env v)
  | .bind spread source body => m.push (.bind spread body env v) (.eval source env v)
  | .comma l r => m.either (.eval l env v) (.eval r env v)
  | .alt l r => m.watch (.alt r env v) l env v
  | .cond t yes no => m.push (.cond yes no env v) (.eval t env v)
  | .logic stop l r => m.push (.logic stop r env v) (.eval l env v)
  | .math l op r => m.push (.mathRight op r env v) (.eval l env v)
  | .compare l c r => m.push (.compareRight c r env v) (.eval l env v)
  | .assign p c => m.push (.change p env v .set) (.eval c env v)
  | .update p c => m.goto (.update p env v (.run c env))
  | .updateMath p op c => m.push (.change p env v (.math op)) (.eval c env v)
  | .updateAlt p c => m.push (.change p env v .default) (.eval c env v)
  | .fold kind spread source start step projection =>
    m.push (.fold (.eval kind spread step projection env) source env v) (.eval start env v)
  | .attempt c handler => m.watch (.attempt handler env) c env v
  | .label c =>
    { m with labels := m.labels + 1 }.watch (.label m.labels) c (.label m.labels :: env) v
  | .breakTo i =>
    match env[i]? with
    | some (.label id) => m.raise (.breakTo id)
    | _ => m.goto .exhausted
  | .path start indices steps => m.push (.indices indices steps env v) (.eval start env v)
  | .var i => m.deliver (env.value i)
  | .gather is => m.deliver (.arr (is.map env.value))
  | .native run args => m.native host run (args.map env.value) v
  | .raise => m.raise (.raised v)
  | .first c => m.watch .first c env v
  | .last c => m.watch (.last none) c env v
  | .limit i c =>
    match (env.value i).asInt with
    | .error e => m.raise e
    | .ok n => if n ≤ 0 then m.goto .exhausted else m.watch (.limit n.toNat) c env v
  | .keyed what key => m.keyed what key env v
  | .span a b c => m.span (env.value a) (env.value b) (env.value c)
  | c => m.call (fun c env => .eval c env v) lib env c

def update (lib : Library) (c : Code) (env : Env) (v : Value) (u : Updater) : Progress :=
  match c with
  | .identity => m.goto (.apply u v)
  | .recurse => m.goto (.apply (.descend u) v)
  | .pipe l r => m.goto (.update l env v (.through r env u))
  | .comma l r => m.push (.update r env u) (.update l env v u)
  | .bind spread source body => m.watch (.fold (.update spread body env u) v) source env v
  | .cond t yes no => m.watch (.fold (.cond yes no env u) v) t env v
  | .alt l r => m.watch (.branch l r env v u) l env v
  | .fold kind spread source start step projection =>
    let f := Folding.eval kind spread step projection env
    m.goto (.update start env v (.fold f [⟨.eval source env v, []⟩] u))
  | .path start none steps => m.goto (.update start env v (.steps steps [] u))
  | .path start (some is) steps => m.goto (.update start env v (.paths is env v steps u))
  | .raise => m.raise (.raised v)
  | c => m.call (fun c env => .update c env v u) lib env c

def window (lower upper : Option Slot) (indices : List Value) (length : Nat) :
    Except EvalError (Nat × Nat) := do
  let (a, b) ← Value.bounds (lower.map (·.value indices)) (upper.map (·.value indices))
  return Value.window a b length

def part (s : Step) (indices : List Value) (v : Value) : Except EvalError (List Value) :=
  match s with
  | .index i _ => do return [← v.index (i.value indices)]
  | .range none none _ => v.elements
  | .range a b _ => do return [← v.slice (a.map (·.value indices)) (b.map (·.value indices))]

def follow (steps : List Step) (indices : List Value) (v : Value) : Progress :=
  match steps with
  | [] => m.deliver v
  | s :: ss =>
    match part s indices v with
    | .ok [w] => m.push (.steps ss indices) (.deliver w)
    | .ok ws => m.push (.steps ss indices) (.values ws)
    | .error e => if s.isOptional then m.goto .exhausted else m.raise e

def parts (u : Updater) (v : Value) : Progress :=
  match v with
  | .arr (x :: xs) => m.enter (.items u [] xs) (.apply u x) []
  | .obj ((k, x) :: ms) => m.enter (.members u [] k ms) (.apply u x) []
  | v => m.deliver v

def updatePart (s : Step) (indices : List Value) (u : Updater) (v : Value) : Progress :=
  let unfit (e : EvalError) := if s.isOptional then m.deliver v else m.raise e
  match s with
  | .index i _ =>
    match v.spot (i.value indices) with
    | .ok spot => m.enter (.fill spot v) (.apply u spot.old) []
    | .error e => unfit e
  | .range none none _ =>
    match v.elements with
    | .ok _ => m.parts u v
    | .error e => unfit e
  | .range a b _ =>
    match v with
    | .arr xs =>
      match window a b indices xs.length with
      | .ok w => m.enter (.splice xs w) (.apply u (.arr (Value.sublist xs w))) []
      | .error e => unfit e
    | v => unfit (.mismatch v .array)

def apply (u : Updater) (v : Value) : Progress :=
  match u with
  | .run c env => m.goto (.eval c env v)
  | .change how w => m.ofExcept (how.result v w)
  | .through c env u => m.goto (.update c env v u)
  | .steps [] _ u => m.goto (.apply u v)
  | .steps [s] is u => m.updatePart s is u v
  | .steps (s :: ss) is u => m.updatePart s is (.steps ss is u) v
  | .paths c env w steps u => m.watch (.fold (.paths steps u) v) c env w
  | .descend u => { m with konts := .apply u :: m.konts }.parts (.descend u) v
  | .fold f choices u => m.enter (.foldPath f v u) .exhausted choices
  | .emit none _ u rest => m.push (.apply rest) (.apply u v)
  | .emit (some p) env u rest => m.push (.apply rest) (.update p env v u)

def single (key v : Value) : Except EvalError Value := do
  return .obj [(← key.asString, v)]

def proceed (k : Kont) (v : Value) : Progress :=
  match k with
  | .negate => m.ofExcept v.negate
  | .pipe r env => m.goto (.eval r env v)
  | .bind spread body env w => m.goto (.eval body (env.bind spread v) w)
  | .cond yes no env w => m.goto (.eval (if v.truthy then yes else no) env w)
  | .logic stop r env w =>
    if v.truthy = stop then m.deliver (.bool stop) else m.push .truth (.eval r env w)
  | .truth => m.deliver (.bool v.truthy)
  | .key c env w => m.push (.member v) (.eval c env w)
  | .member key => m.ofExcept (single key v)
  | .mathRight op r env w => m.push (.math op v) (.eval r env w)
  | .math op l => m.ofExcept (Value.calculate op l v)
  | .compareRight c r env w => m.push (.compare c v) (.eval r env w)
  | .compare c l => m.deliver (.bool (c.holds l v))
  | .change p env w how => m.goto (.update p env w (.change how v))
  | .fold f source env w => m.watch (.fold f v) source env w
  | .folded f env choices =>
    match f.emits with
    | none => m.enter (.fold f v) .exhausted choices
    | some none => m.either (.deliver v) (.resume (.fold f v) choices)
    | some (some p) => m.either (.eval p env v) (.resume (.fold f v) choices)
  | .indices none steps _ _ => m.follow steps [] v
  | .indices (some c) steps env w => m.push (.follow steps v) (.eval c env w)
  | .follow steps w =>
    match v with
    | .arr is => m.follow steps is w
    | _ => m.goto .exhausted
  | .steps ss is => m.follow ss is v
  | .update c env u => m.goto (.update c env v u)
  | .apply u => m.goto (.apply u v)

def leave (l : Level) (rest : List Level) (f : Focus) : Progress :=
  .next { m with focus := f, konts := l.konts, choices := l.choices, outer := rest }

def pass (l : Level) (rest : List Level) (w : Watch) (v : Value) : Progress :=
  let choices := if m.choices.isEmpty then l.choices
    else ⟨.resume w m.choices, l.konts⟩ :: l.choices
  .next { m with focus := .deliver v, konts := l.konts, choices, outer := rest }

def stay (l : Level) (rest : List Level) (w : Watch) (f : Focus) : Progress :=
  .next { m with focus := f, konts := [], outer := { l with watch := w } :: rest }

def restart (l : Level) (rest : List Level) (w : Watch) (f : Focus) : Progress :=
  .next { m with focus := f, konts := [], choices := [], outer := { l with watch := w } :: rest }

def outside (l : Level) (rest : List Level) (k : List Kont) (f : Focus) : Progress :=
  .next { m with focus := f, konts := k ++ l.konts, choices := l.choices, outer := rest }

def onValue (l : Level) (rest : List Level) (v : Value) : Progress :=
  match l.watch with
  | .collect acc => m.stay l rest (.collect (v :: acc)) .exhausted
  | .attempt .. | .label _ => m.pass l rest l.watch v
  | .alt .. | .truths =>
    if v.truthy then m.pass l rest .truths v else m.stay l rest l.watch .exhausted
  | .first => m.leave l rest (.deliver v)
  | .last _ => m.stay l rest (.last (some v)) .exhausted
  | .limit n => if n ≤ 1 then m.leave l rest (.deliver v) else m.pass l rest (.limit (n - 1)) v
  | .fold f acc =>
    let (env, focus) := f.onElement v acc
    m.outside l rest [.folded f env m.choices] focus
  | .foldPath f acc u =>
    match f with
    | .eval kind spread step projection outer =>
      let env := outer.bind spread v
      let next := Updater.fold f m.choices u
      let u := match kind with
        | .reduce => next
        | .foreach => .emit projection env u next
      m.outside l rest [] (.update step env acc u)
    | _ => m.leave l rest (.deliver acc)
  | .keyed what key env done acc x xs =>
    m.stay l rest (.keyed what key env done (v :: acc) x xs) .exhausted
  | .fill spot w => m.leave l rest (.deliver (spot.fill w (some v)))
  | .splice xs w =>
    match v.asArray with
    | .ok ys => m.leave l rest (.deliver (Value.splice xs w ys))
    | .error e => m.leave l rest (.raise e)
  | .items u done xs => m.stay l rest (.items u (v :: done) xs) .exhausted
  | .members u done k ms =>
    match ms with
    | [] => m.leave l rest (.deliver (.obj ((k, v) :: done).reverse))
    | (k', x) :: ms => m.restart l rest (.members u ((k, v) :: done) k' ms) (.apply u x)
  | .branch left right env w u =>
    if v.truthy then m.leave l rest (.update left env w u)
    else m.stay l rest (.branch left right env w u) .exhausted

def onEnd (l : Level) (rest : List Level) : Progress :=
  match l.watch with
  | .collect acc => m.leave l rest (.deliver (.arr acc.reverse))
  | .attempt .. | .label _ | .truths | .first | .limit _ => m.leave l rest .exhausted
  | .alt r env v => m.leave l rest (.eval r env v)
  | .last found => m.leave l rest (match found with
    | some v => .deliver v
    | none => .exhausted)
  | .fold f acc => m.leave l rest (if f.emits.isSome then .exhausted else .deliver acc)
  | .foldPath f acc u => m.leave l rest (if f.emits.isSome then .deliver acc else .apply u acc)
  | .keyed what key env done acc x xs =>
    let done := (.arr acc.reverse, x) :: done
    match xs with
    | [] => m.leave l rest (.values (what.results done.reverse))
    | y :: ys => m.restart l rest (.keyed what key env done [] y ys) (.eval key env y)
  | .fill spot w => m.leave l rest (.deliver (spot.fill w none))
  | .splice xs w => m.leave l rest (.deliver (Value.splice xs w []))
  | .items u done xs =>
    match xs with
    | [] => m.leave l rest (.deliver (.arr done.reverse))
    | y :: ys => m.restart l rest (.items u done ys) (.apply u y)
  | .members u done _ ms =>
    match ms with
    | [] => m.leave l rest (.deliver (.obj done.reverse))
    | (k', x) :: ms => m.restart l rest (.members u done k' ms) (.apply u x)
  | .branch _ right env v u => m.leave l rest (.update right env v u)

def onError (l : Level) (rest : List Level) (e : EvalError) : Progress :=
  match l.watch, e with
  | .label id, .breakTo id' => m.leave l rest (if id = id' then .exhausted else .raise e)
  | .attempt _ _, .breakTo _ => m.leave l rest (.raise e)
  | .attempt none _, _ => m.leave l rest .exhausted
  | .attempt (some h) env, e => m.leave l rest (.eval h env e.caught)
  | .branch left _ env v u, _ => m.leave l rest (.update left env v u)
  | _, e => m.leave l rest (.raise e)

def step (lib : Library) (host : Host) : Progress :=
  match m.focus with
  | .eval c env v => m.eval lib host c env v
  | .update c env v u => m.update lib c env v u
  | .apply u v => m.apply u v
  | .values vs => m.values vs
  | .descend vs => m.descend vs
  | .span x stop step => m.span x stop step
  | .resume w choices => m.enter w .exhausted choices
  | .deliver v =>
    match m.konts, m.outer with
    | k :: ks, _ => { m with konts := ks }.proceed k v
    | [], l :: rest => m.onValue l rest v
    | [], [] => .item v { m with focus := .exhausted }
  | .exhausted =>
    match m.choices, m.outer with
    | ⟨f, ks⟩ :: cs, _ => .next { m with focus := f, konts := ks, choices := cs }
    | [], l :: rest => m.onEnd l rest
    | [], [] => .done
  | .raise e =>
    match m.outer with
    | l :: rest => m.onError l rest e
    | [] => .failed e

/-- The results of an evaluation that is watched for so many steps. -/
def results (lib : Library) (host : Host) : Nat → Machine → Results
  | 0, _ => .interrupted .unfinished
  | steps + 1, m =>
    match m.step lib host with
    | .next m => results lib host steps m
    | .item v m => .item (.ok v.toJson) fun _ => results lib host steps m
    | .failed e => .item (.error e.message) fun _ => .done
    | .note n m => .note n.event fun _ => results lib host steps m
    | .exit e => .interrupted (.exit e)
    | .done => .done

end Machine

end JsonFilter.Filter
