import FacetQuery.Session.Basic
import FacetQuery.Config.Reader
import FacetQuery.Wire.Literal
import FacetQuery.Proofs.Cache.Invalidation
import FacetQuery.Proofs.Cache.Bookkeeping
import FacetQuery.Proofs.Cache.Refinement
import FacetQuery.Proofs.Reminimization
import FacetQuery.Proofs.Tabulation
import FacetQuery.Proofs.Tabulation.Pairs
import FacetQuery.Proofs.Implicant.Readings
import FacetQuery.Proofs.Refusals
import FacetQuery.Proofs.Evaluation.SetAlgebra
import FacetQuery.Proofs.Pages
import FacetQuery.Proofs.Pattern.Wildcards
import FacetQuery.Proofs.Store.Integers
import FacetQuery.Proofs.Store.Numbers
import FacetQuery.Proofs.Formula.Printing
import FacetQuery.Proofs.Path.Text
import FacetQuery.Proofs.Cover.Essentials
import FacetQuery.Proofs.Query.FirstSeen
import FacetQuery.Proofs.Wire.Defects
