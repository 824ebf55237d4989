namespace StepRunner

abbrev Bytes := List UInt8

end StepRunner
