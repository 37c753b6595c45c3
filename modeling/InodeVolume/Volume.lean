import InodeVolume.Cache.Basic
import InodeVolume.Program
import InodeVolume.Space.Allocator

/-!
# Volumes

A volume answers the requests of a program from a cache and an allocator.
-/

namespace InodeVolume

structure Volume (δ α : Type) where
  cache : Cache δ
  allocator : α

namespace Volume

variable {δ α β : Type}

def onCache (act : Action (Cache δ) β) : Action (Volume δ α) β :=
  .onPart Volume.cache (fun cache v => { v with cache }) act

variable [Device δ] [Allocator α]

def allocate (count : Nat) : Action (Volume δ α) (Option Sector) :=
  .step Volume.allocator (fun allocator v => { v with allocator }) (Allocator.allocate · count)

def release (s : Sector) (count : Nat) : Action (Volume δ α) Unit :=
  .step Volume.allocator (fun allocator v => { v with allocator }) fun a =>
    (Allocator.release a s count).map ((), ·)

def answer : (r : Request) → Action (Volume δ α) r.Answer
  | .read s => onCache (Cache.read s)
  | .write s data => onCache (Cache.write s data)
  | .allocate => allocate 1
  | .release s => release s 1

def perform (p : Program β) : Action (Volume δ α) β := p.run answer

/-- Writes back what is cached, as far as the device takes it, and gives up the cache. -/
def unmount (v : Volume δ α) : δ :=
  match onCache Cache.drain v with
  | .ok _ v | .error _ v => v.cache.device

end Volume

end InodeVolume
