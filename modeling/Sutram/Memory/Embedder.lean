/-
The embedding cache.

`Embedder.embed` keeps vectors in Redis, under the name of the model and the digest of the
text and as JSON, in front of the provider that the registry has for the model.  The
vectors of different models are not comparable, so it matters that a vector found in the
cache is one of the model asked for.
-/
import Sutram.Core.JsonText
import Sutram.Core.RateLimit
import Sutram.Library.CacheAside
import Sutram.Library.Dict
import Sutram.Library.Runs

namespace Sutram.Memory

open Sutram.Core Runs

/-! ## The registry -/

/-- Providers by the names of their models. -/
structure EmbeddingRegistry {P : Type} (modelName : P → String) where
  providers : Dict String P
  named : ∀ e ∈ providers.entries, modelName e.2 = e.1

namespace EmbeddingRegistry

variable {P : Type} {modelName : P → String}

def empty : EmbeddingRegistry modelName := ⟨.empty, List.forall_mem_nil _⟩

def register (reg : EmbeddingRegistry modelName) (provider : P) : EmbeddingRegistry modelName where
  providers := reg.providers.set (modelName provider) provider
  named e he := by
    rcases Dict.mem_of_set he with he | rfl
    · exact reg.named e he
    · rfl

/-- `none` for the `KeyError`. -/
def get (reg : EmbeddingRegistry modelName) (model : String) : Option P := reg.providers.get? model

def registeredModels (reg : EmbeddingRegistry modelName) : List String :=
  reg.providers.entries.map Prod.fst

theorem modelName_of_get {reg : EmbeddingRegistry modelName} {model : String} {provider : P}
    (h : reg.get model = some provider) : modelName provider = model :=
  reg.named (model, provider) ((Dict.mem_iff_get? _ _ _).mpr h)

end EmbeddingRegistry

/-! ## The embedder -/

/-- `sha256` is `hashlib.sha256(text.encode()).hexdigest()`, and `float` what reading a
float and writing it again makes of its text. -/
structure Embedder {P : Type} (modelName : P → String) where
  registry : EmbeddingRegistry modelName
  ttl : Nat := 3600
  sha256 : String → String
  float : String → String

namespace Embedder

variable {P : Type} {modelName : P → String} (e : Embedder modelName)

def cacheKey (model text : String) : String := "embedding:" ++ model ++ ":" ++ e.sha256 text

/-- The cache that `embed` keeps, for a model and a text. -/
def cache : CacheAside (String × String) String Json String where
  key a := e.cacheKey a.1 a.2
  encode := Json.dumps
  decode := Json.loads e.float
  ttl := e.ttl
  own key := "embedding:".toList.isPrefixOf key.toList
  own_key a := by
    rw [List.isPrefixOf_iff_prefix, cacheKey, String.toList_append, String.toList_append,
      String.toList_append, List.append_assoc, List.append_assoc]
    exact List.prefix_append _ _

/-- A vector that a provider has returned for a text. -/
structure Asked (P : Type) where
  provider : P
  text : String
  vector : Json
  time : Nat

structure State (P : Type) where
  cache : CacheAside.State (String × String) String Json String := {}
  asked : List (Asked P) := []

inductive Action where
  /-- `embed` is called, and looks up its key. -/
  | embed (i : Nat) (text model : String)
  /-- What the provider returns for `[text]`, or that it raises. -/
  | answer (i : Nat) (reply : Option (List Json))
  | setex (i : Nat)
  /-- The connection is lost behind the SETEX. -/
  | setexLost (i : Nat)
  /-- Redis does not answer, or the call is cancelled. -/
  | fail (i : Nat)
  | evict (key : String)
  /-- Another part of the service writes a key of its own. -/
  | other (key : String) (entry : Option (Expiring Nat String))
  | wait (seconds : Nat)

def advance (s : State P) (a : CacheAside.Action (String × String) String Json String) :
    Option (State P) :=
  (CacheAside.step e.cache s.cache a).map fun cache => { s with cache }

def step (s : State P) : Action → Option (State P)
  | .embed i text model => e.advance s (.look i (model, text))
  | .answer i reply =>
    match s.cache.phases i with
    | .missed (model, text) =>
      match e.registry.get model, reply with
      | some provider, some (vector :: _) =>
        (e.advance s (.compute i vector)).map fun s' =>
          { s' with asked := s.asked ++ [⟨provider, text, vector, s.cache.now⟩] }
      -- KeyError, IndexError, or what the provider raises
      | _, _ => e.advance s (.fail i)
    | _ => none
  | .setex i => e.advance s (.store i)
  | .setexLost i => e.advance s (.storeLost i)
  | .fail i => e.advance s (.fail i)
  | .evict key => e.advance s (.evict key)
  | .other key entry => e.advance s (.write key entry)
  | .wait seconds => e.advance s (.wait seconds)

/-! ## Keys -/

variable {e}

/-- The key tells model and digest apart, since a digest has no colon. -/
theorem cacheKey_inj {model model' text text' : String} (htext : ':' ∉ (e.sha256 text).toList)
    (htext' : ':' ∉ (e.sha256 text').toList)
    (h : e.cacheKey model text = e.cacheKey model' text') :
    model = model' ∧ e.sha256 text = e.sha256 text' := by
  have hlists := congrArg String.toList h
  simp only [cacheKey, String.toList_append] at hlists
  have hsplit : ("embedding:".toList ++ model.toList) ++ ':' :: (e.sha256 text).toList =
      ("embedding:".toList ++ model'.toList) ++ ':' :: (e.sha256 text').toList := by
    simpa using hlists
  obtain ⟨hmodel, hdigest⟩ := RateLimiter.split_last htext htext' hsplit
  exact ⟨String.toList_inj.mp (List.append_cancel_left hmodel), String.toList_inj.mp hdigest⟩

/-! ## Runs -/

/-- What the cache takes as computed the provider of its model has returned. -/
structure Sound (e : Embedder modelName) (s : State P) : Prop where
  cache : CacheAside.Sound e.cache s.cache
  asked : ∀ c ∈ s.cache.computed, ∃ a ∈ s.asked, e.registry.get c.argument.1 = some a.provider ∧
    a.text = c.argument.2 ∧ a.vector = c.value ∧ a.time = c.time

theorem Sound.advance {s s' : State P} {a : CacheAside.Action (String × String) String Json String}
    (hI : Sound e s) (ha : ∀ i v, a ≠ .compute i v) (h : e.advance s a = some s') : Sound e s' := by
  obtain ⟨cache, hcache, rfl⟩ := Option.map_eq_some_iff.mp h
  refine ⟨CacheAside.sound_step hI.cache hcache, ?_⟩
  rcases CacheAside.computed_of_step hcache with hsame | ⟨i, b, v, rfl, -⟩
  · rw [hsame]
    exact hI.asked
  · exact absurd rfl (ha i v)

theorem sound_step {s s' : State P} {a : Action} (hI : Sound e s) (h : e.step s a = some s') :
    Sound e s' := by
  cases a with
  | answer i reply =>
    simp only [step] at h
    split at h
    · rename_i model text hphase
      split at h
      · rename_i provider vector rest hprovider
        obtain ⟨s₁, hs₁, rfl⟩ := Option.map_eq_some_iff.mp h
        obtain ⟨cache, hcache, rfl⟩ := Option.map_eq_some_iff.mp hs₁
        refine ⟨CacheAside.sound_step hI.cache hcache, fun c hc => ?_⟩
        have hmore : ∀ a ∈ s.asked, a ∈ s.asked ++ [⟨provider, text, vector, s.cache.now⟩] :=
          fun a ha => List.mem_append_left _ ha
        rcases CacheAside.computed_of_step hcache with hsame | ⟨j, b, v, haction, hb, hadded⟩
        · rw [hsame] at hc
          obtain ⟨a, ha, hlinked⟩ := hI.asked c hc
          exact ⟨a, hmore a ha, hlinked⟩
        · cases haction
          cases hphase.symm.trans hb
          rw [hadded] at hc
          rcases List.mem_append.mp hc with hc | hc
          · obtain ⟨a, ha, hlinked⟩ := hI.asked c hc
            exact ⟨a, hmore a ha, hlinked⟩
          · rw [List.mem_singleton.mp hc]
            exact ⟨_, List.mem_append_right _ List.mem_cons_self, hprovider, rfl, rfl, rfl⟩
      · exact hI.advance (by simp) h
    · cases h
  | embed i text model | setex i | setexLost i | fail i | evict key | other key entry
  | wait seconds => exact hI.advance (by simp) h

/-- What the embedder has returned stays on record. -/
theorem returned_of_step {s s' : State P} {a : Action} (h : e.step s a = some s') :
    s.cache.returned ⊆ s'.cache.returned := by
  have hadvance {s₁ : State P} {b : CacheAside.Action (String × String) String Json String}
      (h : e.advance s b = some s₁) : s.cache.returned ⊆ s₁.cache.returned := by
    obtain ⟨cache, hcache, rfl⟩ := Option.map_eq_some_iff.mp h
    exact CacheAside.returned_of_step hcache
  cases a with
  | answer i reply =>
    simp only [step] at h
    split at h
    · split at h
      · obtain ⟨s₁, hs₁, rfl⟩ := Option.map_eq_some_iff.mp h
        have hmore : s.cache.returned ⊆ s₁.cache.returned := hadvance hs₁
        exact hmore
      · exact hadvance h
    · cases h
  | embed i text model | setex i | setexLost i | fail i | evict key | other key entry
  | wait seconds => exact hadvance h

theorem sound_initial : Sound e {} := ⟨CacheAside.sound_initial, List.forall_mem_nil _⟩

/-- Whatever calls there are at once, however they fail and whatever Redis forgets: a vector
that `embed` returns for a text and a model is one that the provider registered for the
model has returned for the text, and that this call or another stored under the two no
longer than the time to live ago. -/
theorem embedded_of_run {as : List Action} {s : State P} (hrun : run e.step {} as = some s)
    (hcolon : ∀ r ∈ s.cache.returned ++ s.cache.stored, ':' ∉ (e.sha256 r.argument.2).toList)
    (hdigest : ∀ r ∈ s.cache.returned, ∀ c ∈ s.cache.stored,
      e.sha256 c.argument.2 = e.sha256 r.argument.2 → c.argument.2 = r.argument.2)
    (hplain : ∀ a ∈ s.asked, a.vector.Plain e.float) :
    ∀ r ∈ s.cache.returned, ∃ a ∈ s.asked, e.registry.get r.argument.1 = some a.provider ∧
      modelName a.provider = r.argument.1 ∧ a.text = r.argument.2 ∧ a.vector = r.value ∧
      ∃ c ∈ s.cache.stored, c.argument = r.argument ∧ c.value = r.value ∧
        a.time ≤ c.time ∧ c.time ≤ r.time ∧ r.time ≤ c.time + e.ttl := by
  have hI : Sound e s := invariant_run (I := Sound e) (G := fun _ _ => True)
    (fun _ _ _ hI _ h => sound_step hI h) sound_initial (along_of_mem (by simp) _) hrun
  have hkey : ∀ r ∈ s.cache.returned, ∀ c ∈ s.cache.stored,
      e.cache.key c.argument = e.cache.key r.argument → c.argument = r.argument := by
    intro r hr c hc hsame
    obtain ⟨hmodel, hsha⟩ := cacheKey_inj (hcolon c (List.mem_append_right _ hc))
      (hcolon r (List.mem_append_left _ hr)) hsame
    exact Prod.ext hmodel (hdigest r hr c hc hsha)
  have hcode : ∀ c ∈ s.cache.computed, e.cache.decode (e.cache.encode c.value) = some c.value := by
    intro c hc
    obtain ⟨a, ha, -, -, hvector, -⟩ := hI.asked c hc
    rw [← hvector]
    exact Json.loads_dumps (hplain a ha)
  intro r hr
  obtain ⟨stored, hstored, hkept, hsame, hafter, hbefore, c, hc, hargument, hvalue, htime⟩ :=
    hI.cache.exact hkey hcode r hr
  obtain ⟨a, ha, hprovider, htext, hvector, hasked⟩ := hI.asked c hc
  rw [hargument] at hprovider htext
  exact ⟨a, ha, hprovider, EmbeddingRegistry.modelName_of_get hprovider, htext,
    hvector.trans hvalue, stored, hstored, hkept, hsame, hasked.trans_le htime, hafter, hbefore⟩

/-! ## A miss, a failure and a hit -/

def sampleEmbedder : Embedder (fun provider : String => provider) where
  registry := EmbeddingRegistry.empty.register "text-embedding-3-small"
  sha256 text :=
    if text = "hello world" then "b94d27b9934d3e08a52e52d7da7dabfac484efe37a5380ee9088f7ace2efcde9"
    else ""
  float := id

def sampleVector : Json := .list [.float "0.1", .float "-0.25"]

/-- Two calls miss; one of them fails, and a third finds what the other has stored. -/
def sampleCalls : List Action :=
  [.embed 0 "hello world" "text-embedding-3-small", .embed 1 "hello world" "text-embedding-3-small",
    .answer 0 (some [sampleVector]), .setex 0, .answer 1 none, .wait 60,
    .embed 2 "hello world" "text-embedding-3-small"]

theorem plain_sampleVector : sampleVector.Plain id := by
  have hfirst : Json.FloatText "0.1" :=
    ⟨[], ['0'], ['.', '1'], [], rfl, .inl rfl, ⟨by simp, .inl rfl⟩,
      ⟨.inr ⟨['1'], rfl, by simp, by simp⟩⟩, ⟨.inl rfl⟩, .inl (by simp)⟩
  have hsecond : Json.FloatText "-0.25" :=
    ⟨['-'], ['0'], ['.', '2', '5'], [], rfl, .inr rfl, ⟨by simp, .inl rfl⟩,
      ⟨.inr ⟨['2', '5'], rfl, by simp, by simp⟩⟩, ⟨.inl rfl⟩, .inl (by simp)⟩
  exact ⟨⟨hfirst, rfl⟩, ⟨hsecond, rfl⟩, trivial⟩

theorem embedded_of_run_calls :
    ∃ s, run sampleEmbedder.step {} sampleCalls = some s ∧
      s.cache.returned.map (fun r => (r.value, r.time)) = [(sampleVector, 0), (sampleVector, 60)] ∧
      s.asked.length = 1 ∧
      ∀ r ∈ s.cache.returned, ∃ a ∈ s.asked,
        sampleEmbedder.registry.get r.argument.1 = some a.provider ∧
        a.provider = r.argument.1 ∧ a.text = r.argument.2 ∧ a.vector = r.value ∧
        ∃ c ∈ s.cache.stored, c.argument = r.argument ∧ c.value = r.value ∧
          a.time ≤ c.time ∧ c.time ≤ r.time ∧ r.time ≤ c.time + 3600 := by
  have hend : (run sampleEmbedder.step {} sampleCalls).any fun s =>
      s.cache.returned.map (fun r => (r.value, r.time)) =
          [(sampleVector, 0), (sampleVector, 60)] ∧ s.asked.length = 1 ∧
        (∀ a ∈ s.asked, a.vector = sampleVector) ∧
        ∀ r ∈ s.cache.returned ++ s.cache.stored, r.argument.2 = "hello world" := by
    decide +kernel
  obtain ⟨s, hrun, hreturned, hasked, hvectors, htexts⟩ := exists_of_any hend
  refine ⟨s, hrun, hreturned, hasked, embedded_of_run hrun (fun r hr => ?_) (fun r hr c hc _ => ?_)
    fun a ha => ?_⟩
  · rw [htexts r hr]
    decide +kernel
  · exact (htexts c (List.mem_append_right _ hc)).trans (htexts r (List.mem_append_left _ hr)).symm
  · rw [hvectors a ha]
    exact plain_sampleVector

end Embedder

end Sutram.Memory
