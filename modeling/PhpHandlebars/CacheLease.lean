import PhpHandlebars.RenderRun
import Mathlib.Tactic

/-!
# Leases on cached modules

`handlebars_cache_find` takes a lease on the module it returns, which
`handlebars_cache_release` gives back.  `render` gives back a stale entry at
once, but leaves `from_cache` set, so that the exit releases a second time,
with whatever `module` is then.
-/

namespace PhpHandlebars

/-- The call finds an entry which is older than the file. -/
def StaleHit (before : Process) (call : Call) : Prop :=
  ∃ ref key module, selectCacheId call = .ok (some (ref, key)) ∧
    before.cacheFind key = some module ∧ before.isStale call module

variable {lib : Library} {callee : Callee}

theorem obtainModule_found
    {process : Process} {call : Call} {id : Option Bytes} {module : Module}
    {obtained : Obtained}
    (hobtain : obtainModule lib process call id (some module) =
      .ok obtained) :
    obtained = ⟨process, some module, .fresh, none, []⟩ := by
  simpa [obtainModule, pure, Except.pure, eq_comm] using hobtain

/-- The leases one call takes and gives back by itself. -/
theorem call_leases_balanced_iff
    {process : Process} {call : Call}
    {cacheId : Option (StringRef × Bytes)} {lookup : Lookup}
    {obtained : Obtained}
    (hid : selectCacheId call = .ok cacheId)
    (hlookup : lookup = lookupCache process call (cacheId.map Prod.snd))
    (hobtain : obtainModule lib lookup.process call (cacheId.map Prod.snd)
      lookup.module = .ok obtained) :
    Ledger.Balanced (lookup.leases ++ releaseLease lookup.fromCache
        (cacheId.map Prod.snd) obtained.module) ↔
      ¬ StaleHit process call := by
  have hstep := lookupCache_step process call (cacheId.map Prod.snd)
  rw [← hlookup] at hstep
  cases hstep with
  | miss finds hmiss =>
      apply iff_of_true (by simp [releaseLease])
      rintro ⟨ref, key, module, hid', hfind, _⟩
      rw [hid] at hid'
      obtain rfl := Except.ok.inj hid'
      simp [hmiss key rfl] at hfind
  | stale key module hkey hfind hstale =>
      refine iff_of_false ?_ (not_not.mpr ?_)
      · simp [releaseLease, Ledger.Balanced, Ledger.settle]
      · obtain ⟨⟨ref, _⟩, rfl, rfl⟩ := Option.map_eq_some_iff.mp hkey
        exact ⟨ref, _, module, hid, hfind, hstale⟩
  | hit key module hkey hfind hfresh =>
      obtain rfl := obtainModule_found hobtain
      apply iff_of_true
      · simp [releaseLease, hkey, Ledger.Balanced, Ledger.settle]
      · rintro ⟨ref, key', module', hid', hfind', hstale⟩
        rw [hid] at hid'
        obtain rfl := Except.ok.inj hid'
        obtain rfl : key' = key := by simpa using hkey
        rw [hfind] at hfind'
        obtain rfl := Option.some.inj hfind'
        exact hfresh hstale

/-! ## Whole runs -/

/-- Every call left so far gave back exactly what it took, unless it found a
stale entry. -/
def LeasesSettled (world : World) : Prop :=
  ∀ call before leases refs result,
    .leave call before leases refs result ∈ world.events →
      (Ledger.Balanced leases ↔ ¬ StaleHit before call)

/-- No call entered so far found a stale entry. -/
def NoStaleHit (world : World) : Prop :=
  ∀ call before, .enter call before ∈ world.events →
    ¬ StaleHit before call

def LeasesReturned (before after : World) : Prop :=
  LogGrows before after ∧ (NoStaleHit after → ∃ leases,
    after.leases = before.leases ++ leases ∧ Ledger.Balanced leases)

theorem NoStaleHit.of_logGrows
    {before after : World} (hgrows : LogGrows before after)
    (hquiet : NoStaleHit after) : NoStaleHit before :=
  fun call process hmem => hquiet call process (hgrows.subset hmem)

theorem leasesReturned_worldRelation : WorldRelation LeasesReturned where
  refl := fun world => ⟨List.prefix_rfl, fun _ => ⟨[], by simp, by simp⟩⟩
  trans := by
    rintro first second third ⟨hgrows, hfirst⟩ ⟨hgrows', hsecond⟩
    refine ⟨hgrows.trans hgrows', fun hquiet => ?_⟩
    obtain ⟨leases, heq, hbalanced⟩ := hfirst (hquiet.of_logGrows hgrows')
    obtain ⟨leases', heq', hbalanced'⟩ := hsecond hquiet
    refine ⟨leases ++ leases', ?_, hbalanced.append hbalanced'⟩
    rw [heq', heq, List.append_assoc]
  outside := fun world _ _ => ⟨List.prefix_rfl, fun _ => ⟨[],
    (List.append_nil _).symm, Ledger.balanced_nil⟩⟩

theorem renderWith_leasesReturned
    (hcallee : ∀ world call world' result,
      callee world call = (world', .ok result) → LeasesReturned world world')
    (world : World) (call : Call) (world' : World) (result : CallResult)
    (hrender : renderWith lib callee world call = (world', .ok result)) :
    LeasesReturned world world' := by
  have hstep := renderWith_step lib callee world call
  rw [hrender] at hstep
  cases hstep with
  | returned cacheId lookup obtained executed result hid hlookup hobtain
      hend =>
      obtain ⟨hgrows, hreturned⟩ :=
        leasesReturned_worldRelation.executeModule_ok_relates hcallee hend
      have hlog : LogGrows world executed :=
        (enter_logGrows world call).trans hgrows
      have hlog' : LogGrows executed (executed.leave call world.process
          cacheId lookup obtained result) := leave_logGrows _ _ _ _ _ _ _
      refine ⟨hlog.trans hlog', fun hquiet => ?_⟩
      have hquiet' : NoStaleHit executed := hquiet.of_logGrows hlog'
      have hnostale : ¬ StaleHit world.process call :=
        hquiet' call world.process (hgrows.subset (by simp [World.enter,
          World.look, World.obtain]))
      obtain ⟨inner, hinner, hbalanced⟩ := hreturned hquiet'
      have hown := (call_leases_balanced_iff hid hlookup hobtain).mpr hnostale
      refine ⟨lookup.leases ++ inner ++ releaseLease lookup.fromCache
        (cacheId.map Prod.snd) obtained.module, ?_, hown.insert hbalanced⟩
      simp [World.leave, hinner, World.obtain, World.look, World.enter]

theorem runScript_leasesSettled
    (lib : Library) (fuel : ℕ) (script : Script) (process : Process) :
    LeasesSettled (runScript lib fuel script (.start process)).1 :=
  runScript_everyLeave
    (P := fun call before leases _ =>
      Ledger.Balanced leases ↔ ¬ StaleHit before call)
    call_leases_balanced_iff fuel script process

theorem runScript_balanced
    {fuel : ℕ} {script : Script} {process : Process} {world : World}
    (hrun : runScript lib fuel script (.start process) = (world, .ok ()))
    (hquiet : NoStaleHit world) : Ledger.Balanced world.leases := by
  obtain ⟨_, hreturned⟩ :=
    leasesReturned_worldRelation.runScript_ok_relates
      (fun _ hcallee => renderWith_leasesReturned hcallee) hrun
  obtain ⟨leases, hleases, hbalanced⟩ := hreturned hquiet
  simpa [hleases, World.start] using hbalanced

/-- After a run without stale entries each cached module was released as often
as it was found. -/
theorem runScript_releases_finds
    {fuel : ℕ} {script : Script} {process : Process} {world : World}
    (hrun : runScript lib fuel script (.start process) = (world, .ok ()))
    (hquiet : NoStaleHit world) (key : LeaseKey) :
    world.leases.count (.release key) = world.leases.count (.acquire key) :=
  (runScript_balanced hrun hquiet).count_release key

/-- Each call gives back exactly the leases it took, unless it found a stale
entry; without stale entries nothing is left over or given back twice at the
end of a run. -/
theorem cache_leases_balanced (lib : Library) (fuel : ℕ) (script : Script)
    (process : Process) :
    LeasesSettled (runScript lib fuel script (.start process)).1 ∧
      ∀ world, runScript lib fuel script (.start process) = (world, .ok ()) →
        NoStaleHit world → Ledger.Balanced world.leases :=
  ⟨runScript_leasesSettled lib fuel script process,
    fun _ hrun hquiet => runScript_balanced hrun hquiet⟩

def staleProcess : Process :=
  { sampleProcess with
    cache := some fun id => if id = ascii "f" then
      some ⟨ascii "a", 4, .compiled (ascii "a") ∅ none⟩ else none }

/-- The fresh module is released though the call never found it. -/
theorem stale_entry_released_twice :
    ∃ call before leases refs result,
      .leave call before leases refs result ∈
        (runScript sampleLibrary 1
          (.sequence [.render (sampleCall .filename (ascii "f"))])
          (.start staleProcess)).1.events ∧
      ¬ Ledger.Balanced leases := by
  refine ⟨_, _, _, _, _, .tail _ (.head _), ?_⟩
  decide

end PhpHandlebars
