import Mathlib.Data.List.Forall2
import VectorBench.Proofs.Json.Document
import VectorBench.Record

/-!
# What documents say of records

A document describes a record when it has every part of it exactly once: the configuration with its
five numbers, and for every measurement a member under the name of its engine, in the same order,
with the two durations.  Blanks, the order of the members, the spelling of names and members of
other names are all left open.
-/

namespace VectorBench

open Json (Value Member NumberLiteral only)

/-! ## Parts of documents -/

/-- The member `name` of an object is there once and is the natural number `x`, without sign,
fraction and exponent. -/
def NaturalMember (v : Value) (name : String) (x : UInt64) : Prop :=
  ∃ n, only v.members name = some (.number n) ∧ n.natural? = some x.toNat

/-- The member `name` of an object is there once and is a number that is read as `x`. -/
def SecondsMember (readAs : NumberLiteral → Binary64 → Prop) (v : Value) (name : String)
    (x : Binary64) : Prop :=
  ∃ n, only v.members name = some (.number n) ∧ readAs n x

structure DescribesConfig (v : Value) (c : Config) : Prop where
  samples : NaturalMember v "n_samples" c.samples
  dims : NaturalMember v "n_dims" c.dims
  queries : NaturalMember v "n_queries" c.queries
  topK : NaturalMember v "top_k" c.topK
  seed : NaturalMember v "seed" c.seed

/-- A member describes the measurement of the engine that it names. -/
structure DescribesMeasurement (readAs : NumberLiteral → Binary64 → Prop) (m : Member Value)
    (x : Measurement) : Prop where
  engine : x.engine = m.name.text
  build : SecondsMember readAs m.value "build_sec" x.buildSeconds
  search : SecondsMember readAs m.value "search_sec" x.searchSeconds

structure Describes (readAs : NumberLiteral → Binary64 → Prop) (v : Value) (config : Config)
    (metrics : List Measurement) : Prop where
  config : ∃ w, only v.members "config" = some w ∧ DescribesConfig w config
  metrics : ∃ w, only v.members "metrics" = some w ∧
    List.Forall₂ (DescribesMeasurement readAs) w.members metrics

/-- The values of config, metrics and the entries of metrics, where they are there, are objects. -/
structure HasObjects (v : Value) : Prop where
  top : v.IsObject
  config : ∀ m ∈ v.members, m.name.text = "config" → m.value.IsObject
  metrics : ∀ m ∈ v.members, m.name.text = "metrics" →
    m.value.IsObject ∧ ∀ entry ∈ m.value.members, entry.value.IsObject

end VectorBench
