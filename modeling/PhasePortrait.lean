import PhasePortrait.CommandLine.FileTree
import PhasePortrait.CommandLine.Program
import PhasePortrait.Main
import PhasePortrait.Proofs.Expr.Semantics
import PhasePortrait.Proofs.Particle.Recycling
import PhasePortrait.Proofs.Simulation.Invariant
import PhasePortrait.Proofs.Simulation.Journal
import PhasePortrait.Proofs.Simulation.Cancelling
import PhasePortrait.Proofs.Expr.Parallel
import PhasePortrait.Proofs.Expr.Viability
import PhasePortrait.Proofs.Generator
import PhasePortrait.Proofs.Particle.Invariant
import PhasePortrait.Proofs.Flow.Scene
import PhasePortrait.Proofs.Particle.Separation
import PhasePortrait.Proofs.Simulation.Status
import PhasePortrait.Proofs.CommandLine.Render
import PhasePortrait.Proofs.CommandLine.Waiting
import PhasePortrait.Proofs.Particle.Silence
import PhasePortrait.Proofs.Particle.Trails
import PhasePortrait.Proofs.Particle.Lifetime
import PhasePortrait.Proofs.Exact
import PhasePortrait.Proofs.Raster.Cells
import PhasePortrait.Proofs.Raster.Line
import PhasePortrait.Proofs.Raster.Sprite
import PhasePortrait.Proofs.Particle.Schedule
import PhasePortrait.Proofs.Color.Hex
import PhasePortrait.Proofs.Expr.Bytes
import PhasePortrait.Proofs.Simulation.Halted
import PhasePortrait.Proofs.Json.Members
import PhasePortrait.Proofs.Particle.RoundTrip
import PhasePortrait.Proofs.Generator.Calls
import PhasePortrait.Proofs.Json.Naturals
import PhasePortrait.Proofs.Generator.Restore
import PhasePortrait.Proofs.RandomSystem
import PhasePortrait.Proofs.Raster.Fading
import PhasePortrait.Proofs.Binary64.Reciprocal
import PhasePortrait.Proofs.Pacing
import PhasePortrait.Proofs.Binary64.Decimals
import PhasePortrait.Proofs.Color.Wheel
import PhasePortrait.Proofs.Binary64.Rounding
import PhasePortrait.Proofs.Binary64.Order
import PhasePortrait.Proofs.Particle.Places
import PhasePortrait.Proofs.Particle.Schema
import PhasePortrait.Proofs.Binary64.Parts
import PhasePortrait.Proofs.Decimal.Plain
import PhasePortrait.Proofs.Binary64.ReadBack
import PhasePortrait.Proofs.Expr.Printing
import PhasePortrait.Proofs.Canvas
import PhasePortrait.Proofs.Simulation.Batches
import PhasePortrait.Proofs.Expr.Calls
import PhasePortrait.Proofs.Expr.Counters
