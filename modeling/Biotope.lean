import Biotope.Main
import Biotope.Pool.Survey
import Biotope.Evolution.Supervision
import Biotope.Proofs.Refinement
import Biotope.Proofs.Circulation
import Biotope.Proofs.Storage
import Biotope.Proofs.Shapes
import Biotope.Proofs.Censuses
import Biotope.Proofs.Recovery
import Biotope.Proofs.Harvests
import Biotope.Proofs.Templates
import Biotope.Proofs.Weights
import Biotope.Proofs.Workers
import Biotope.Proofs.Keepers
import Biotope.Proofs.Climates
import Biotope.Proofs.SavedSettings
import Biotope.Proofs.Mimics
import Biotope.Proofs.Lifecycles
import Biotope.Proofs.Runs
import Biotope.Proofs.Facsimiles
import Biotope.Proofs.Prunings
import Biotope.Proofs.Holes
import Biotope.Proofs.Mutation
import Biotope.Proofs.Extremes
import Biotope.Proofs.Overrides
import Biotope.Proofs.Strippings
import Biotope.Proofs.Gates
import Biotope.Proofs.Visits
import Biotope.Proofs.Reports
